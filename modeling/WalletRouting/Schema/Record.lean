import WalletRouting.Schema.Basic

/-! # Records, lists and maps

What a record does not declare is passed over, unless the record allows for nothing beside what it declares.
-/
namespace WalletRouting
set_option autoImplicit false

namespace Schema

variable {α : Type}

def record (fields : Keyed Value → Checked α) : Read α
  | .object members => fields members
  | v => issue .notRecord v

def required (name : String) (read : Read α) (members : Keyed Value) : Checked α :=
  match members.get? name with
  | some v => (read v).within (.key name)
  | none => .bad [⟨.missing, [.key name], .object members⟩]

def optional (name : String) (default : α) (read : Read α) (members : Keyed Value) : Checked α :=
  match members.get? name with
  | some v => (read v).within (.key name)
  | none => .ok default

/-- Refuses members of other names. -/
def nothingBeside (names : List String) (members : Keyed Value) : Checked Unit :=
  match members.filter fun (k, _) => !(names.contains k) with
  | [] => .ok ()
  | others => .bad (others.map fun (k, v) => ⟨.undeclared, [.key k], v⟩)

def nullable (read : Read α) : Read (Option α)
  | .null => .ok none
  | v => (read v).map some

def itemsFrom (read : Read α) (i : Nat) : List Value → Checked (List α)
  | [] => .ok []
  | v :: rest => (· :: ·) <$> (read v).within (.index i) <*> itemsFrom read (i + 1) rest

def listOf (read : Read α) : Read (List α)
  | .list items => itemsFrom read 0 items
  | v => issue .notList v

def entries (read : Read α) : List (String × Value) → Checked (Keyed α)
  | [] => .ok []
  | (k, v) :: rest => (fun a rest => (k, a) :: rest) <$> (read v).within (.key k) <*> entries read rest

def mapOf (read : Read α) : Read (Keyed α)
  | .object members => entries read members
  | v => issue .notMap v

end Schema

namespace Value

def ofList {α : Type} (f : α → Value) (xs : List α) : Value := .list (xs.map f)

def ofMap {α : Type} (f : α → Value) (m : Keyed α) : Value := .object (m.map fun (k, a) => (k, f a))

/-- A map as a record writes it: names are mended, and what comes to stand under one name later replaces the rest. -/
def ofNames {α : Type} (f : α → Value) (m : Keyed α) : Value :=
  .object (Keyed.ofPairs (m.map fun (k, a) => (Text.mended k, f a)))

end Value

end WalletRouting
