import WalletRouting.Proofs.Keyed
import WalletRouting.Proofs.Text.Mending
import WalletRouting.Schema.Record
import WalletRouting.Schema.Scalar

/-! # What is written is read back

A scalar reads as itself, and a list or what may be null reads back where all that it holds does. A map comes back with
its names mended.
-/
namespace WalletRouting
set_option autoImplicit false

namespace Value

@[simp] theorem ofOption_none {α : Type} (f : α → Value) : ofOption f none = .null := rfl

@[simp] theorem ofOption_some {α : Type} (f : α → Value) (a : α) : ofOption f (some a) = f a := rfl

end Value

namespace Keyed

variable {α : Type}

/-- A map as it is written: of names that come to be the same, the first keeps its place and the last its value. -/
def mended (m : Keyed α) : Keyed α := ofPairs (m.map fun p => (Text.mended p.1, p.2))

theorem isWhole_of_mem_mended {m : Keyed α} {name : String} (h : name ∈ m.mended.keys) : Text.isWhole name = true := by
  rw [mended, mem_keys_ofPairs, List.map_map] at h
  obtain ⟨p, -, rfl⟩ := List.mem_map.mp h
  exact Text.isWhole_mended p.1

theorem mended_of_whole {m : Keyed α} (hdistinct : m.keys.Nodup) (hspelled : ∀ name ∈ m.keys, Text.IsSpelled name)
    (hwhole : ∀ name ∈ m.keys, Text.isWhole name = true) : m.mended = m := by
  have hsame : (m.map fun p => (Text.mended p.1, p.2)) = m := by
    conv_rhs => rw [← List.map_id m]
    refine List.map_congr_left fun p hp => ?_
    have hname := List.mem_map_of_mem (f := Prod.fst) hp
    rw [Text.mended_of_isWhole (hspelled _ hname) (hwhole _ hname), id]
  rw [mended, hsame, ofPairs_of_nodup hdistinct]

end Keyed

namespace Schema

variable {α : Type} {read : Read α} {write : α → Value}

@[simp] theorem text_text (s : String) : text (.text s) = .ok s := rfl

@[simp] theorem flag_bool (b : Bool) : flag (.bool b) = .ok b := rfl

@[simp] theorem integer_int (n : Int) : integer (.int n) = .ok n := rfl

@[simp] theorem anything_self (v : Value) : anything v = .ok v := rfl

@[simp] theorem double_float (x : Double) : double (.float x) = .ok x := rfl

theorem doubleWithin_float {low high x : Double} (hlow : low ≤ x) (hhigh : x ≤ high) :
    doubleWithin low high (.float x) = .ok x := by
  rw [doubleWithin, double_float]
  dsimp only
  rw [if_pos hhigh, if_pos hlow]

theorem member_text {names : Keyed α} {otherwise : Problem} {s : String} {a : α} (hwhole : Text.isWhole s = true)
    (h : names.get? s = some a) : member names otherwise (.text s) = .ok a := by
  simp only [member, spelled, if_pos hwhole, h]

theorem nullable_ofOption {g : α → α} {o : Option α} (hwritten : ∀ a, write a ≠ .null)
    (h : ∀ a ∈ o, read (write a) = .ok (g a)) : nullable read (.ofOption write o) = .ok (o.map g) := by
  cases o with
  | none => rfl
  | some a =>
    rw [Value.ofOption_some, nullable, h a rfl]
    · rfl
    · exact hwritten a

theorem nullable_self (h : ∀ a, read (write a) = .ok a) (hwritten : ∀ a, write a ≠ .null) (o : Option α) :
    nullable read (.ofOption write o) = .ok o := by
  rw [nullable_ofOption (g := id) hwritten fun a _ => h a, Option.map_id_apply]

@[simp] theorem nullable_text (o : Option String) : nullable text (.ofOption .text o) = .ok o :=
  nullable_self text_text (fun _ => nofun) o

@[simp] theorem nullable_integer (o : Option Int) : nullable integer (.ofOption .int o) = .ok o :=
  nullable_self integer_int (fun _ => nofun) o

@[simp] theorem nullable_double (o : Option Double) : nullable double (.ofOption .float o) = .ok o :=
  nullable_self double_float (fun _ => nofun) o

theorem itemsFrom_map {g : α → α} {xs : List α} (h : ∀ a ∈ xs, read (write a) = .ok (g a)) (i : Nat) :
    itemsFrom read i (xs.map write) = .ok (xs.map g) := by
  induction xs generalizing i with
  | nil => rfl
  | cons a rest ih =>
    rw [List.forall_mem_cons] at h
    rw [List.map_cons, itemsFrom, h.1, ih h.2]
    rfl

theorem listOf_ofList {g : α → α} {xs : List α} (h : ∀ a ∈ xs, read (write a) = .ok (g a)) :
    listOf read (.ofList write xs) = .ok (xs.map g) := itemsFrom_map h 0

theorem listOf_self {xs : List α} (h : ∀ a ∈ xs, read (write a) = .ok a) :
    listOf read (.ofList write xs) = .ok xs := by
  rw [listOf_ofList (g := id) h, List.map_id]

@[simp] theorem listOf_text (xs : List String) : listOf text (.ofList .text xs) = .ok xs :=
  listOf_self fun s _ => text_text s

@[simp] theorem listOf_integer (xs : List Int) : listOf integer (.ofList .int xs) = .ok xs :=
  listOf_self fun n _ => integer_int n

theorem entries_map {m : Keyed α} (h : ∀ p ∈ m, read (write p.2) = .ok p.2) :
    entries read (m.map fun p => (p.1, write p.2)) = .ok m := by
  induction m with
  | nil => rfl
  | cons p rest ih =>
    rw [List.forall_mem_cons] at h
    rw [List.map_cons, entries, h.1, ih h.2]
    rfl

theorem ofNames_map {β : Type} (f : α → β) (g : β → Value) (m : Keyed α) :
    Value.ofNames g (m.map fun p => (p.1, f p.2)) = .ofNames (g ∘ f) m := by
  rw [Value.ofNames, Value.ofNames, List.map_map]
  rfl

theorem ofNames_eq (m : Keyed α) : Value.ofNames write m = .object (m.mended.map fun p => (p.1, write p.2)) := by
  rw [Value.ofNames, Keyed.mended, ← Keyed.ofPairs_map, List.map_map]
  rfl

theorem mapOf_ofNames (h : ∀ a, read (write a) = .ok a) (m : Keyed α) :
    mapOf read (.ofNames write m) = .ok m.mended := by
  rw [ofNames_eq, mapOf, entries_map fun p _ => h p.2]

end Schema

end WalletRouting
