import WalletRouting.Number.Binary

/-! # The order of doubles

Every double but the one that is not a number has a place, and one is below another when its place comes first. So
`<` and `≤` behave as a linear order wherever they hold, which is all that is asked of them here.
-/
namespace WalletRouting
set_option autoImplicit false

namespace Double

open Float.Model (UnpackedFloat)

/-- The rank of the kind of number, then exponent and mantissa, negated below zero. -/
def placeOf : UnpackedFloat → Option (Int × Int × Int)
  | .notANumber => none
  | .infinity .negative => some (-2, 0, 0)
  | .finite .negative m e _ => some (-1, -e, -(m : Int))
  | .zero _ => some (0, 0, 0)
  | .finite .positive m e _ => some (1, e, m)
  | .infinity .positive => some (2, 0, 0)

def place (x : Double) : Option (Int × Int × Int) := placeOf x.toModel.unpack

def Precedes (p q : Int × Int × Int) : Prop :=
  p.1 < q.1 ∨ p.1 = q.1 ∧ (p.2.1 < q.2.1 ∨ p.2.1 = q.2.1 ∧ p.2.2 < q.2.2)

theorem then_compare_eq_lt {e₁ e₂ : Int} {m₁ m₂ : Nat} :
    (compare e₁ e₂).then (compare m₁ m₂) = .lt ↔ e₁ < e₂ ∨ e₁ = e₂ ∧ m₁ < m₂ := by
  rw [Ordering.then_eq_lt, Int.compare_eq_lt, Int.compare_eq_eq, Nat.compare_eq_lt]

theorem then_compare_eq_gt {e₁ e₂ : Int} {m₁ m₂ : Nat} :
    (compare e₁ e₂).then (compare m₁ m₂) = .gt ↔ e₂ < e₁ ∨ e₁ = e₂ ∧ m₂ < m₁ := by
  rw [Ordering.then_eq_gt, Int.compare_eq_gt, Int.compare_eq_eq, Nat.compare_eq_gt]

theorem compare_spec {a b : UnpackedFloat} {p q : Int × Int × Int} (ha : placeOf a = some p)
    (hb : placeOf b = some q) :
    ∃ o, a.compare b = some o ∧ (o = .lt ↔ Precedes p q) ∧ (o = .gt ↔ Precedes q p) := by
  -- Only two numbers of one sign need more than their kinds.
  rcases a with (_ | _) | _ | _ | ⟨_ | _, m₁, e₁, _⟩ <;> cases ha <;>
    rcases b with (_ | _) | _ | _ | ⟨_ | _, m₂, e₂, _⟩ <;> cases hb <;> refine ⟨_, rfl, ?_, ?_⟩ <;>
    simp [Precedes, then_compare_eq_lt, then_compare_eq_gt] <;> first | decide | omega

theorem eq_notANumber {a : UnpackedFloat} (h : placeOf a = none) : a = .notANumber := by
  rcases a with (_ | _) | _ | _ | ⟨_ | _, m, e, _⟩ <;> first | rfl | cases h

theorem compare_notANumber (a : UnpackedFloat) : a.compare .notANumber = none := by
  rcases a with (_ | _) | _ | _ | ⟨_ | _, m, e, _⟩ <;> rfl

theorem compare_of_placeOf_eq_none {a b : UnpackedFloat} (h : placeOf a = none ∨ placeOf b = none) :
    a.compare b = none := by
  rcases h with h | h
  · rw [eq_notANumber h]
    rfl
  · rw [eq_notANumber h]
    exact compare_notANumber a

theorem lt_iff {x y : Double} : x < y ↔ ∃ p q, place x = some p ∧ place y = some q ∧ Precedes p q := by
  have hmodel : x < y ↔ (x.toModel.unpack.compare y.toModel.unpack == some .lt) = true := decide_eq_true_iff
  rw [hmodel]
  cases hx : place x with
  | none => simp [compare_of_placeOf_eq_none (Or.inl hx)]
  | some p =>
    cases hy : place y with
    | none => simp [compare_of_placeOf_eq_none (Or.inr hy)]
    | some q =>
      obtain ⟨o, ho, hlt, -⟩ := compare_spec hx hy
      simp [ho, hlt]

theorem le_iff {x y : Double} : x ≤ y ↔ ∃ p q, place x = some p ∧ place y = some q ∧ ¬Precedes q p := by
  have hmodel : x ≤ y ↔ ((x.toModel.unpack.compare y.toModel.unpack).any fun o => o.isLE) = true :=
    decide_eq_true_iff
  rw [hmodel]
  cases hx : place x with
  | none => simp [compare_of_placeOf_eq_none (Or.inl hx)]
  | some p =>
    cases hy : place y with
    | none => simp [compare_of_placeOf_eq_none (Or.inr hy)]
    | some q =>
      obtain ⟨o, ho, -, hgt⟩ := compare_spec hx hy
      have hle : o.isLE = true ↔ ¬o = .gt := by cases o <;> decide
      simp [ho, hle, hgt]

theorem not_lt_of_le {x y : Double} (h : y ≤ x) : ¬x < y := by
  obtain ⟨q, p, hy, hx, hnot⟩ := le_iff.mp h
  rw [lt_iff, hx, hy]
  rintro ⟨p', q', hp, hq, hprecedes⟩
  cases hp
  cases hq
  exact hnot hprecedes

theorem le_of_lt {x y : Double} (h : x < y) : x ≤ y := by
  obtain ⟨p, q, hx, hy, hprecedes⟩ := lt_iff.mp h
  refine le_iff.mpr ⟨p, q, hx, hy, ?_⟩
  unfold Precedes at *
  omega

theorem not_precedes_self (p : Int × Int × Int) : ¬Precedes p p := by
  unfold Precedes
  omega

theorem not_precedes_trans {p q r : Int × Int × Int} (h : ¬Precedes q p) (h' : ¬Precedes r q) : ¬Precedes r p := by
  unfold Precedes at *
  omega

theorem eq_of_not_precedes {p q : Int × Int × Int} (h : ¬Precedes p q) (h' : ¬Precedes q p) : p = q := by
  unfold Precedes at h h'
  exact Prod.ext (by omega) (Prod.ext (by omega) (by omega))

theorem place_eq_of_le_of_le {x y : Double} (h : x ≤ y) (h' : y ≤ x) : place x = place y := by
  obtain ⟨p, q, hx, hy, hnot⟩ := le_iff.mp h
  obtain ⟨q', p', hy', hx', hnot'⟩ := le_iff.mp h'
  cases hx.symm.trans hx'
  cases hy.symm.trans hy'
  rw [hx, hy, eq_of_not_precedes hnot' hnot]

/-- Doubles that are not negative can be compared. -/
theorem le_of_not_lt {x y : Double} (hx : 0 ≤ x) (hy : 0 ≤ y) (h : ¬x < y) : y ≤ x := by
  obtain ⟨-, p, -, hp, -⟩ := le_iff.mp hx
  obtain ⟨-, q, -, hq, -⟩ := le_iff.mp hy
  exact le_iff.mpr ⟨q, p, hq, hp, fun hprecedes => h (lt_iff.mpr ⟨p, q, hp, hq, hprecedes⟩)⟩

theorem not_lt_self (x : Double) : ¬x < x := fun h => not_lt_of_le (le_of_lt h) h

theorem le_self {x : Double} {r : Int × Int × Int} (h : place x = some r) : x ≤ x :=
  le_iff.mpr ⟨r, r, h, h, not_precedes_self r⟩

theorem le_trans {x y z : Double} (h : x ≤ y) (h' : y ≤ z) : x ≤ z := by
  obtain ⟨p, q, hx, hy, hnot⟩ := le_iff.mp h
  obtain ⟨q', r, hy', hz, hnot'⟩ := le_iff.mp h'
  obtain rfl : q = q' := Option.some.inj (hy.symm.trans hy')
  exact le_iff.mpr ⟨p, r, hx, hz, not_precedes_trans hnot hnot'⟩

theorem lt_of_le_of_lt {x y z : Double} (h : x ≤ y) (hlt : y < z) : x < z := by
  obtain ⟨p, q, hx, hy, hnot⟩ := le_iff.mp h
  obtain ⟨q', r, hy', hz, hprecedes⟩ := lt_iff.mp hlt
  obtain rfl : q = q' := Option.some.inj (hy.symm.trans hy')
  refine lt_iff.mpr ⟨p, r, hx, hz, ?_⟩
  unfold Precedes at *
  omega

protected theorem lt_of_lt_of_le {x y z : Double} (h : x < y) (hle : y ≤ z) : x < z := by
  obtain ⟨p, q, hx, hy, hprecedes⟩ := lt_iff.mp h
  obtain ⟨q', r, hy', hz, hnot⟩ := le_iff.mp hle
  obtain rfl : q = q' := Option.some.inj (hy.symm.trans hy')
  refine lt_iff.mpr ⟨p, r, hx, hz, ?_⟩
  unfold Precedes at *
  omega

end Double

end WalletRouting
