import WalletRouting.Keyed
import WalletRouting.Number.Basic
import WalletRouting.Text.Half

/-! # Free-form values

What a condition compares with, what a wallet stores as metadata, and what travels as JSON. The members
of an object stay in the order in which they came; no comparison depends on it.
-/
namespace WalletRouting
set_option autoImplicit false

inductive Value where
  | null
  | bool (b : Bool)
  | num (n : Number)
  | text (s : String)
  | list (items : List Value)
  | object (members : List (String × Value))
  /-- Stands for a reading that is missing. -/
  | unresolved
  deriving Repr

inductive WriteError where
  /-- Too many values lie inside one another. -/
  | tooDeep
  /-- The value stands for nothing that could be written. -/
  | unwritable
  /-- The name of a member holds half of a surrogate pair. -/
  | brokenName
  deriving DecidableEq, Repr

namespace Value

instance : Inhabited Value := ⟨.null⟩

def int (n : Int) : Value := .num (.int n)

def float (x : Double) : Value := .num (.float x)

def nat (n : Nat) : Value := .int (Int.ofNat n)

def ofOption {α : Type} (f : α → Value) : Option α → Value
  | none => .null
  | some a => f a

def isBool : Value → Bool
  | .bool _ => true
  | _ => false

/-- The number a value counts as inside a comparison; true is one and false is zero. -/
def quantity? : Value → Option Number
  | .bool b => some (.int (if b then 1 else 0))
  | .num n => some n
  | _ => none

/-- Whether there is something to the value: it is not null, false, zero or empty. -/
def isPresent : Value → Bool
  | .null => false
  | .bool b => b
  | .num n => !n.isZero
  | .text s => s ≠ ""
  | .list xs => !xs.isEmpty
  | .object ms => !ms.isEmpty
  | .unresolved => true

mutual

/-- Equality of content: numbers by value, objects without regard to order, NaN equal to nothing. -/
def agrees : Value → Value → Bool
  | .null, .null => true
  | .bool a, .bool b => a == b
  | .bool a, .num n => (Number.int (if a then 1 else 0)).same n
  | .num m, .bool b => m.same (.int (if b then 1 else 0))
  | .num m, .num n => m.same n
  | .text s, .text t => s == t
  | .list xs, .list ys => agreesAll xs ys
  | .object ms, .object ns => ms.length == ns.length && agreesMembers ms ns
  | .unresolved, .unresolved => true
  | _, _ => false

def agreesAll : List Value → List Value → Bool
  | [], [] => true
  | x :: xs, y :: ys => agrees x y && agreesAll xs ys
  | _, _ => false

def agreesMembers : List (String × Value) → List (String × Value) → Bool
  | [], _ => true
  | (k, v) :: ms, ns =>
    (match Keyed.get? k ns with
    | some w => agrees v w
    | none => false) && agreesMembers ms ns

end

/-- Equality of content in which a truth value never equals a number at the top. -/
def equals (a b : Value) : Bool := a.isBool == b.isBool && agrees a b

mutual

/-- The value as it is written out where any value may stand: a number that is not finite becomes null. -/
def finitePart : Value → Value
  | .num (.float x) => if Double.finite x then .num (.float x) else .null
  | .list xs => .list (finiteParts xs)
  | .object ms => .object (finiteMembers ms)
  | v => v

def finiteParts : List Value → List Value
  | [] => []
  | x :: xs => finitePart x :: finiteParts xs

def finiteMembers : List (String × Value) → List (String × Value)
  | [] => []
  | (k, v) :: ms => (k, finitePart v) :: finiteMembers ms

end

mutual

def isFinite : Value → Bool
  | .num (.float x) => Double.finite x
  | .list xs => allFinite xs
  | .object ms => membersFinite ms
  | _ => true

def allFinite : List Value → Bool
  | [] => true
  | x :: xs => isFinite x && allFinite xs

def membersFinite : List (String × Value) → Bool
  | [] => true
  | (_, v) :: ms => isFinite v && membersFinite ms

end

mutual

/-- Whether no text in the value, and no name of a member, holds half of a surrogate pair. -/
def isWhole : Value → Bool
  | .text s => Text.isWhole s
  | .list xs => allWhole xs
  | .object ms => membersWhole ms
  | _ => true

def allWhole : List Value → Bool
  | [] => true
  | x :: xs => isWhole x && allWhole xs

def membersWhole : List (String × Value) → Bool
  | [] => true
  | (k, v) :: ms => Text.isWhole k && isWhole v && membersWhole ms

end

/-- How many values may lie inside one another where any value may stand. -/
def depthLimit : Nat := 255

mutual

/-- Why the value cannot be written with room for so many values inside one another: every reason, in the order in which
they are met. -/
def writeErrors (room : Nat) (v : Value) : List WriteError :=
  match room, v with
  | 0, _ => [.tooDeep]
  | _ + 1, .unresolved => [.unwritable]
  | room + 1, .list xs => itemsWriteErrors room xs
  | room + 1, .object ms => membersWriteErrors room ms
  | _ + 1, _ => []

def itemsWriteErrors (room : Nat) : List Value → List WriteError
  | [] => []
  | x :: xs => writeErrors room x ++ itemsWriteErrors room xs

def membersWriteErrors (room : Nat) : List (String × Value) → List WriteError
  | [] => []
  | (k, v) :: ms =>
    (if Text.isWhole k then [] else [.brokenName]) ++ (writeErrors room v ++ membersWriteErrors room ms)

end

/-- The first reason, if any, why values kept under names cannot be written. The names themselves are mended. -/
def namedWriteError? (members : Keyed Value) : Option WriteError :=
  members.findSome? fun (_, v) => (writeErrors depthLimit v).head?

end Value

end WalletRouting
