import Mathlib.Data.List.Nodup
import WalletRouting.Proofs.Text.Mending
import WalletRouting.Value.Basic

/-! # The parts of a value

What is asked of everything in a value: whether the names in every object are whole and different, whether every text is
whole, whether every number is finite, whether all of it can be written.
-/
namespace WalletRouting
set_option autoImplicit false

namespace Value

/-- What holds of a value when it holds of what the value is made of holds of every value. -/
theorem induct {P : Value → Prop} (null : P .null) (bool : ∀ b, P (.bool b)) (num : ∀ n, P (.num n))
    (text : ∀ s, P (.text s)) (list : ∀ xs, (∀ x ∈ xs, P x) → P (.list xs))
    (object : ∀ ms, (∀ m ∈ ms, P m.2) → P (.object ms)) (unresolved : P .unresolved) : ∀ v : Value, P v
  | .null => null
  | .bool b => bool b
  | .num n => num n
  | .text s => text s
  | .list xs => list xs fun x _ => induct null bool num text list object unresolved x
  | .object ms => object ms fun m _ => induct null bool num text list object unresolved m.2
  | .unresolved => unresolved
decreasing_by
  · have hlt := List.sizeOf_lt_of_mem ‹x ∈ xs›
    simp only [Value.list.sizeOf_spec]
    omega
  · have hlt := List.sizeOf_lt_of_mem ‹m ∈ ms›
    have hm : sizeOf m.2 < sizeOf m := by cases m; simp only [Prod.mk.sizeOf_spec]; omega
    simp only [Value.object.sizeOf_spec]
    omega

/-! ## Names -/

mutual

/-- The names in every object that the value is or holds. -/
def names : Value → List (List String)
  | .list xs => itemNames xs
  | .object ms => ms.map Prod.fst :: memberNames ms
  | _ => []

def itemNames : List Value → List (List String)
  | [] => []
  | x :: xs => names x ++ itemNames xs

def memberNames : List (String × Value) → List (List String)
  | [] => []
  | (_, v) :: ms => names v ++ memberNames ms

end

@[simp] theorem itemNames_eq (xs : List Value) : itemNames xs = xs.flatMap names := by
  induction xs with
  | nil => rfl
  | cons x xs ih => rw [itemNames, ih, List.flatMap_cons]

@[simp] theorem memberNames_eq (ms : List (String × Value)) : memberNames ms = ms.flatMap fun m => names m.2 := by
  induction ms with
  | nil => rfl
  | cons m ms ih => rw [memberNames, ih, List.flatMap_cons]

/-- Whether something is true of the names in every object that the value is or holds. -/
def EachObject (P : List String → Prop) (v : Value) : Prop := ∀ object ∈ v.names, P object

instance (P : List String → Prop) [DecidablePred P] (v : Value) : Decidable (EachObject P v) :=
  inferInstanceAs (Decidable (∀ object ∈ v.names, P object))

theorem eachObject_list {P : List String → Prop} {xs : List Value} :
    EachObject P (.list xs) ↔ ∀ x ∈ xs, EachObject P x := by
  unfold EachObject
  rw [names, itemNames_eq]
  simp only [List.mem_flatMap]
  exact ⟨fun h x hx object ho => h object ⟨x, hx, ho⟩, fun h object ⟨x, hx, ho⟩ => h x hx object ho⟩

theorem eachObject_object {P : List String → Prop} {ms : List (String × Value)} :
    EachObject P (.object ms) ↔ P (ms.map Prod.fst) ∧ ∀ m ∈ ms, EachObject P m.2 := by
  unfold EachObject
  rw [names, memberNames_eq, List.forall_mem_cons]
  refine and_congr Iff.rfl ?_
  simp only [List.mem_flatMap]
  exact ⟨fun h m hm object ho => h object ⟨m, hm, ho⟩, fun h object ⟨m, hm, ho⟩ => h m hm object ho⟩

/-- Names without halves, no two of them equal in one object. -/
def WellNamed (v : Value) : Prop :=
  ∀ object ∈ v.names, (∀ name ∈ object, Text.isWhole name = true) ∧ (object.map Text.points).Nodup

@[simp] theorem wellNamed_list {xs : List Value} : WellNamed (.list xs) ↔ ∀ x ∈ xs, WellNamed x := eachObject_list

@[simp] theorem wellNamed_object {ms : List (String × Value)} :
    WellNamed (.object ms) ↔
      ((∀ m ∈ ms, Text.isWhole m.1 = true) ∧ (ms.map fun m => Text.points m.1).Nodup) ∧ ∀ m ∈ ms, WellNamed m.2 := by
  refine eachObject_object.trans (and_congr ?_ Iff.rfl)
  rw [List.forall_mem_map, List.map_map]
  rfl

@[simp] theorem itemsWriteErrors_eq (room : Nat) (xs : List Value) :
    itemsWriteErrors room xs = xs.flatMap (writeErrors room) := by
  induction xs with
  | nil => rfl
  | cons x xs ih => rw [itemsWriteErrors, ih, List.flatMap_cons]

@[simp] theorem membersWriteErrors_eq (room : Nat) (ms : List (String × Value)) :
    membersWriteErrors room ms =
      ms.flatMap fun m => (if Text.isWhole m.1 then [] else [.brokenName]) ++ m.2.writeErrors room := by
  induction ms with
  | nil => rfl
  | cons m ms ih => rw [membersWriteErrors, ih, List.flatMap_cons, List.append_assoc]

theorem namedWriteError?_eq_none_iff {members : Keyed Value} :
    namedWriteError? members = none ↔ ∀ m ∈ members, m.2.writeErrors depthLimit = [] := by
  unfold namedWriteError?
  simp only [List.findSome?_eq_none_iff, List.head?_eq_none_iff]

theorem isWhole_of_writable {v : Value} {room : Nat} (h : v.writeErrors room = []) :
    ∀ object ∈ v.names, ∀ name ∈ object, Text.isWhole name = true := by
  induction v using induct generalizing room with
  | null => simp [names]
  | bool b => simp [names]
  | num n => simp [names]
  | text s => simp [names]
  | unresolved => simp [names]
  | list xs ih =>
    cases room with
    | zero => cases h
    | succ room =>
      rw [writeErrors, itemsWriteErrors_eq, List.flatMap_eq_nil_iff] at h
      rw [names, itemNames_eq]
      intro object hobject
      obtain ⟨x, hx, hobject⟩ := List.mem_flatMap.mp hobject
      exact ih x hx (h x hx) object hobject
  | object ms ih =>
    cases room with
    | zero => cases h
    | succ room =>
      rw [writeErrors, membersWriteErrors_eq, List.flatMap_eq_nil_iff] at h
      rw [names, memberNames_eq, List.forall_mem_cons, List.forall_mem_map]
      constructor
      · intro m hm
        have hname := (List.append_eq_nil_iff.mp (h m hm)).1
        by_contra hbroken
        rw [if_neg hbroken] at hname
        cases hname
      · intro object hobject
        obtain ⟨m, hm, hobject⟩ := List.mem_flatMap.mp hobject
        exact ih m hm (List.append_eq_nil_iff.mp (h m hm)).2 object hobject

/-! ## Whole texts -/

@[simp] theorem allWhole_eq (xs : List Value) : allWhole xs = xs.all isWhole := by
  induction xs with
  | nil => rfl
  | cons x xs ih => rw [allWhole, ih, List.all_cons]

@[simp] theorem membersWhole_eq (ms : List (String × Value)) :
    membersWhole ms = ms.all fun m => Text.isWhole m.1 && m.2.isWhole := by
  induction ms with
  | nil => rfl
  | cons m ms ih => rw [membersWhole, ih, List.all_cons]

mutual

/-- Whether no text in the value, and no name of a member, has a character of the last plane. -/
def belowLastPlane : Value → Bool
  | .text s => Text.belowLastPlane s
  | .list xs => allBelowLastPlane xs
  | .object ms => membersBelowLastPlane ms
  | _ => true

def allBelowLastPlane : List Value → Bool
  | [] => true
  | x :: xs => belowLastPlane x && allBelowLastPlane xs

def membersBelowLastPlane : List (String × Value) → Bool
  | [] => true
  | (k, v) :: ms => Text.belowLastPlane k && belowLastPlane v && membersBelowLastPlane ms

end

theorem allBelowLastPlane_eq (xs : List Value) : allBelowLastPlane xs = xs.all belowLastPlane := by
  induction xs with
  | nil => rfl
  | cons x xs ih => rw [allBelowLastPlane, ih, List.all_cons]

theorem membersBelowLastPlane_eq (ms : List (String × Value)) :
    membersBelowLastPlane ms = ms.all fun m => Text.belowLastPlane m.1 && m.2.belowLastPlane := by
  induction ms with
  | nil => rfl
  | cons m ms ih => rw [membersBelowLastPlane, ih, List.all_cons]

/-- What has no character of the last plane is whole, and is soon seen to have none. -/
theorem isWhole_of_belowLastPlane {v : Value} (h : v.belowLastPlane = true) : v.isWhole = true := by
  induction v using induct with
  | null => rfl
  | bool b => rfl
  | num n => rfl
  | unresolved => rfl
  | text s => exact Text.isWhole_of_belowLastPlane h
  | list xs ih =>
    rw [belowLastPlane, allBelowLastPlane_eq, List.all_eq_true] at h
    rw [isWhole, allWhole_eq, List.all_eq_true]
    exact fun x hx => ih x hx (h x hx)
  | object ms ih =>
    rw [belowLastPlane, membersBelowLastPlane_eq, List.all_eq_true] at h
    rw [isWhole, membersWhole_eq, List.all_eq_true]
    intro m hm
    obtain ⟨hname, hvalue⟩ := Bool.and_eq_true_iff.mp (h m hm)
    rw [Text.isWhole_of_belowLastPlane hname, ih m hm hvalue, Bool.and_true]

/-! ## Finite numbers -/

@[simp] theorem finiteParts_eq (xs : List Value) : finiteParts xs = xs.map finitePart := by
  induction xs with
  | nil => rfl
  | cons x xs ih => rw [finiteParts, ih, List.map_cons]

@[simp] theorem finiteMembers_eq (ms : List (String × Value)) :
    finiteMembers ms = ms.map fun m => (m.1, m.2.finitePart) := by
  induction ms with
  | nil => rfl
  | cons m ms ih => rw [finiteMembers, ih, List.map_cons]

@[simp] theorem allFinite_eq (xs : List Value) : allFinite xs = xs.all isFinite := by
  induction xs with
  | nil => rfl
  | cons x xs ih => rw [allFinite, ih, List.all_cons]

@[simp] theorem membersFinite_eq (ms : List (String × Value)) : membersFinite ms = ms.all fun m => m.2.isFinite := by
  induction ms with
  | nil => rfl
  | cons m ms ih => rw [membersFinite, ih, List.all_cons]

theorem finitePart_of_isFinite {v : Value} (h : v.isFinite = true) : v.finitePart = v := by
  induction v using induct with
  | null => rfl
  | bool b => rfl
  | text s => rfl
  | unresolved => rfl
  | num n =>
    cases n with
    | int k => rfl
    | float x => exact if_pos h
  | list xs ih =>
    rw [isFinite, allFinite_eq, List.all_eq_true] at h
    rw [finitePart, finiteParts_eq, List.map_congr_left fun x hx => ih x hx (h x hx), List.map_id']
  | object ms ih =>
    rw [isFinite, membersFinite_eq, List.all_eq_true] at h
    rw [finitePart, finiteMembers_eq, List.map_congr_left fun m hm => by rw [ih m hm (h m hm)], List.map_id']

end Value

end WalletRouting
