import WalletRouting.Proofs.Text.Units
import WalletRouting.Proofs.Value.Parts

/-! # What a JSON text stands for

A datum is what a value stands for once it has been written: texts are their units, whole numbers and doubles differ,
and an object is a map from names, in no order.
-/
namespace WalletRouting
set_option autoImplicit false

inductive Datum where
  | null
  | bool (b : Bool)
  | int (n : Int)
  | double (x : Binary)
  | text (units : List Nat)
  | list (items : List Datum)
  | object (members : List Nat → Option Datum)
  /-- What is no JSON. -/
  | nothing

def Number.datum : Number → Datum
  | .int n => .int n
  | .float x => .double (Binary.ofFloat x)

namespace Value

mutual

def datum : Value → Datum
  | .null => .null
  | .bool b => .bool b
  | .num n => n.datum
  | .text s => .text (Text.units s)
  | .list xs => .list (itemData xs)
  | .object ms => .object fun name => (memberData ms).lookup name
  | .unresolved => .nothing

def itemData : List Value → List Datum
  | [] => []
  | x :: xs => datum x :: itemData xs

def memberData : List (String × Value) → List (List Nat × Datum)
  | [] => []
  | (k, v) :: ms => (Text.units k, datum v) :: memberData ms

end

@[simp] theorem itemData_eq (xs : List Value) : itemData xs = xs.map datum := by
  induction xs with
  | nil => rfl
  | cons x xs ih => rw [itemData, ih, List.map_cons]

@[simp] theorem memberData_eq (ms : List (String × Value)) :
    memberData ms = ms.map fun m => (Text.units m.1, m.2.datum) := by
  induction ms with
  | nil => rfl
  | cons m ms ih => rw [memberData, ih, List.map_cons]

theorem datum_list (xs : List Value) : datum (.list xs) = .list (xs.map datum) := by rw [datum, itemData_eq]

theorem datum_object (ms : List (String × Value)) :
    datum (.object ms) = .object fun name => (ms.map fun m => (Text.units m.1, m.2.datum)).lookup name := by
  rw [datum, memberData_eq]

/-- Where one map of two lists tells the elements apart as far as another does, it tells the lists apart as far. -/
theorem map_eq_of_map_eq {α β γ : Type} {f : α → β} {g : α → γ} {xs ys : List α} (h : xs.map f = ys.map f)
    (hg : ∀ x ∈ xs, ∀ y ∈ ys, f x = f y → g x = g y) : xs.map g = ys.map g := by
  induction xs generalizing ys with
  | nil =>
    rw [List.map_nil, eq_comm, List.map_eq_nil_iff] at h
    rw [h]
  | cons x xs ih =>
    obtain ⟨y, ys, rfl, hfirst, hrest⟩ := List.map_eq_cons_iff.mp h.symm
    rw [List.map_cons, List.map_cons, hg x List.mem_cons_self y List.mem_cons_self hfirst.symm,
      ih hrest.symm fun a ha b hb => hg a (List.mem_cons_of_mem _ ha) b (List.mem_cons_of_mem _ hb)]

end Value

end WalletRouting
