import WalletRouting.Proofs.Draws.Position
import WalletRouting.Proofs.Number.Monotone
import WalletRouting.Proofs.Run.Selection

/-! # Riskier purchases

A higher amount and more flags never cost fewer points, whatever the limits of amounts are and however they are ordered,
and a lower tolerance never weighs points less. After the same draws a riskier purchase is not found safer.
-/
namespace WalletRouting
set_option autoImplicit false

namespace Number

variable {n : Number} {x y : Double}

theorem below_of_le (h : x ≤ y) (hbelow : n.below (.float x) = true) : n.below (.float y) = true := by
  obtain ⟨v, w, hv, hw, hcompare⟩ := exactValue_of_compare? (eq_of_beq hbelow)
  obtain ⟨w', u, hw', (hu : (Number.float y).exactValue = some u), hle⟩ := Double.le_iff_exactValue.mp h
  obtain rfl : w = w' := Option.some.inj (hw.symm.trans hw')
  have hlt : v < u := (compare_lt_iff_lt.mp hcompare).trans_le hle
  rw [below, compare?_of_exactValue hv hu, compare_lt_iff_lt.mpr hlt]
  rfl

theorem reaches_of_le (h : x ≤ y) (hreaches : (Number.float x).reaches n = true) :
    (Number.float y).reaches n = true := by
  obtain ⟨v, u, hv, (hu : (Number.float y).exactValue = some u), hle⟩ := Double.le_iff_exactValue.mp h
  have hcompare : ∃ o, compare? (.float x) n = some o ∧ o ≠ .lt := by
    rcases (Bool.or_eq_true _ _).mp hreaches with heq | hgt
    · exact ⟨_, eq_of_beq heq, by decide⟩
    · exact ⟨_, eq_of_beq hgt, by decide⟩
  obtain ⟨o, ho, hnot⟩ := hcompare
  obtain ⟨v', w, hv', hw, rfl⟩ := exactValue_of_compare? ho
  obtain rfl : v = v' := Option.some.inj (hv.symm.trans hv')
  have hwv : w ≤ v := not_lt.mp fun hlt => hnot (compare_lt_iff_lt.mpr hlt)
  rw [reaches, compare?_of_exactValue hu hw]
  rcases (hwv.trans hle).eq_or_lt with rfl | hlt
  · rw [compare_eq_iff_eq.mpr rfl]
    rfl
  · rw [compare_gt_iff_gt.mpr hlt]
    rfl

end Number

def RiskTolerance.rank : RiskTolerance → Nat
  | .low => 0
  | .medium => 1
  | .high => 2

/-- A purchase of no smaller amount and with all the flags, for a user of no higher tolerance. -/
structure NoSafer (t t' : Transaction) (u u' : User) : Prop where
  amount : t.amount ≤ t'.amount
  flags : t.riskFlags ⊆ t'.riskFlags
  country : t'.country = t.country
  inPerson : t'.inPerson = t.inPerson
  tolerance : u'.tolerance.rank ≤ u.tolerance.rank

/-! ## Points -/

namespace Charge

theorem total_append (charges others : List Charge) : total (charges ++ others) = total charges + total others := by
  induction charges with
  | nil => exact (Nat.zero_add _).symm
  | cons c rest ih =>
    simp only [total, List.cons_append, List.foldr_cons] at ih ⊢
    omega

theorem total_ite_le {p : Prop} [Decidable p] {tier rest : List Charge} {n : Nat} (htier : total tier ≤ n)
    (hrest : total rest ≤ n) : total (if p then tier else rest) ≤ n := by
  split_ifs
  · exact htier
  · exact hrest

theorem total_tier_le {p p' : Prop} [Decidable p] [Decidable p'] {tier tier' rest rest' : List Charge} (h : p → p')
    (htier : total tier ≤ total tier') (hbound : total rest ≤ total tier') (hrest : total rest ≤ total rest') :
    total (if p then tier else rest) ≤ total (if p' then tier' else rest') := by
  split_ifs with hp hp' hp'
  · exact htier
  · exact absurd (h hp) hp'
  · exact hbound
  · exact hrest

theorem total_filter_le {charges : Keyed Charge} {keep keep' : String × Charge → Bool}
    (h : ∀ c ∈ charges, keep c = true → keep' c = true) :
    total ((charges.filter keep).map Prod.snd) ≤ total ((charges.filter keep').map Prod.snd) := by
  induction charges with
  | nil => exact le_rfl
  | cons c rest ih =>
    have hrest := ih fun d hd => h d (List.mem_cons_of_mem _ hd)
    have hc := h c List.mem_cons_self
    rw [List.filter_cons, List.filter_cons]
    split_ifs with hkeep hkeep' hkeep'
    · exact Nat.add_le_add_left hrest _
    · exact absurd (hc hkeep) hkeep'
    · exact hrest.trans (Nat.le_add_left _ _)
    · exact hrest

end Charge

namespace RiskAssessment

open Charge (total)
open Double (Measures)
open Generator (unitOf)

variable {amount amount' : Double} {t t' : Transaction} {u u' : User}

theorem total_amountCharges_le (limits : RiskLimits) (h : amount ≤ amount') :
    total (amountCharges limits amount) ≤ total (amountCharges limits amount') := by
  have hmedium : 10 ≤ 20 := by decide
  have hlow : 3 ≤ 10 := by decide
  unfold amountCharges
  refine Charge.total_tier_le (Number.below_of_le h) (le_refl 20) ?_ ?_
  · exact Charge.total_ite_le hmedium (Charge.total_ite_le (hlow.trans hmedium) (Nat.zero_le 20))
  refine Charge.total_tier_le (Number.below_of_le h) (le_refl 10) ?_ ?_
  · exact Charge.total_ite_le hlow (Nat.zero_le 10)
  · exact Charge.total_tier_le (Number.below_of_le h) (le_refl 3) (Nat.zero_le 3) (le_refl 0)

theorem total_raisedCharges_le {flags flags' : List String} (h : flags ⊆ flags') :
    total (raisedCharges flags) ≤ total (raisedCharges flags') := by
  refine Charge.total_filter_le ?_
  rintro ⟨flag, c⟩ - hflag
  exact List.contains_iff_mem.mpr (h (List.contains_iff_mem.mp hflag))

theorem lt_projectedUtilization_of_le {terms : Terms} {bound : Double} (hbound : 0 ≤ bound) (h : amount ≤ amount')
    (hlt : bound < terms.projectedUtilization amount) : bound < terms.projectedUtilization amount' := by
  unfold Terms.projectedUtilization at hlt ⊢
  split_ifs at hlt ⊢ with hlimit
  · exact hlt
  · exact Double.lt_of_lt_of_le hlt (Double.add_div_le_add_div hlimit h (Double.lt_of_le_of_lt hbound hlt))

theorem total_limitCharges_le (i : Instrument) (h : amount ≤ amount') :
    total (limitCharges i amount) ≤ total (limitCharges i amount') := by
  unfold limitCharges
  split
  · have hreached {bound : Double} (hbound : 0 ≤ bound) : bound < i.terms.projectedUtilization amount →
        bound < i.terms.projectedUtilization amount' := lt_projectedUtilization_of_le hbound h
    have hhigh : 8 ≤ 15 := by decide
    refine Charge.total_tier_le (hreached (by decide +kernel)) (le_refl 15) ?_ ?_
    · exact Charge.total_ite_le hhigh (Nat.zero_le 15)
    · exact Charge.total_tier_le (hreached (by decide +kernel)) (le_refl 8) (Nat.zero_le 8) (le_refl 0)
  · obtain ⟨q, hmeasures, hq⟩ := Double.exists_measures_of_pos (x := 1.5) (by decide +kernel) (by decide +kernel)
    refine Charge.total_tier_le ?_ (le_refl 12) (Nat.zero_le 12) (le_refl 0)
    simp only [decide_eq_true_eq]
    exact fun hlow => Double.lt_of_lt_of_le hlow (Double.mul_le_mul_right h hmeasures hq)
  · exact le_rfl

theorem total_charges_le (limits : RiskLimits) (h : NoSafer t t' u u') (i : Instrument) :
    total (charges limits t i) ≤ total (charges limits t' i) := by
  have hplace : placeCharges t' = placeCharges t := by rw [placeCharges, placeCharges, h.country, h.inPerson]
  have hamount := total_amountCharges_le limits h.amount
  have hraised := total_raisedCharges_le h.flags
  have hlimit := total_limitCharges_le i h.amount
  unfold charges
  simp only [Charge.total_append, hplace, h.country]
  omega

/-! ## From points to risk -/

theorem exists_measures_weightOf (tolerance : RiskTolerance) : ∃ q, Measures (weightOf tolerance) q ∧ 0 < q := by
  apply Double.exists_measures_of_pos
  · cases tolerance <;> decide +kernel
  · cases tolerance <;> decide +kernel

theorem weightOf_le {tolerance tolerance' : RiskTolerance} (h : tolerance'.rank ≤ tolerance.rank) :
    weightOf tolerance ≤ weightOf tolerance' := by
  cases tolerance <;> cases tolerance' <;> first | decide +kernel | exact absurd h (by decide)

theorem weighed_le {n n' : Nat} (hn : n ≤ n') {tolerance tolerance' : RiskTolerance}
    (h : tolerance'.rank ≤ tolerance.rank) :
    Float.ofNat n * weightOf tolerance ≤ Float.ofNat n' * weightOf tolerance' := by
  obtain ⟨p, hp, hpos⟩ := exists_measures_weightOf tolerance
  obtain ⟨q, hq, -⟩ := exists_measures_weightOf tolerance'
  have hpoints : Float.ofNat n ≤ Float.ofNat n' :=
    Double.le_of_spot (Double.place_ofNat n) (Double.place_ofNat n') (Nat.cast_nonneg n) (Nat.cast_le.mpr hn)
  have hnonneg : 0 ≤ Float.ofNat n' := Double.zero_le_of_spot (Double.place_ofNat n') (Nat.cast_nonneg n')
  exact Double.le_trans (Double.mul_le_mul_right hpoints hp hpos)
    (Double.mul_le_mul_left hnonneg hp hq hpos ((hp.le_iff hq).mp (weightOf_le h)))

theorem exists_exactValue_shake (word : UInt32) {k : Double} {q : ℚ} (hk : Measures k q) (hq : 0 < q)
    (hlow : ((0 + -0.5) * k).isFinite = true) (hhigh : ((1 + -0.5) * k).isFinite = true) :
    ∃ r, ((unitOf word - 0.5) * k).exactValue = some (.ofRat r) := by
  obtain ⟨p, hhalf⟩ := Double.exactValue_of_isFinite (x := -0.5) (by decide +kernel)
  obtain ⟨a, ha⟩ := Double.exactValue_of_isFinite hlow
  obtain ⟨b, hb⟩ := Double.exactValue_of_isFinite hhigh
  have hunit := Generator.measures_unitOf word
  have hone : unitOf word ≤ 1 :=
    (hunit.le_iff Double.measures_one).mpr ((Generator.part_le word).trans (by norm_num))
  rw [Double.sub_eq_add_neg]
  exact Double.finite_of_between ha
    (Double.mul_le_mul_right (Double.add_le_add_right hunit.zero_le hhalf) hk hq)
    (Double.mul_le_mul_right (Double.add_le_add_right hone hhalf) hk hq) hb

theorem riskOf_le {n n' : Nat} (hn : n ≤ n') {tolerance tolerance' : RiskTolerance}
    (h : tolerance'.rank ≤ tolerance.rank) (word : UInt32) :
    riskOf tolerance n (unitOf word) ≤ riskOf tolerance' n' (unitOf word) := by
  obtain ⟨q, hten, hq⟩ := Double.exists_measures_of_pos (x := 10.0) (by decide +kernel) (by decide +kernel)
  obtain ⟨p, hhundred, hp⟩ := Double.exists_measures_of_pos (x := 100.0) (by decide +kernel) (by decide +kernel)
  obtain ⟨r, hshake⟩ := exists_exactValue_shake word hten hq (by decide +kernel) (by decide +kernel)
  exact Double.clamp_mono (by decide +kernel)
    (Double.div_le_div_right (Double.add_le_add_right (weighed_le hn h) hshake) hhundred hp)

theorem declineOf_le {risk risk' : Double} (h : risk ≤ risk') (word : UInt32) :
    declineOf risk (unitOf word) ≤ declineOf risk' (unitOf word) := by
  obtain ⟨q, hfraction, hq⟩ := Double.exists_measures_of_pos (x := 0.05) (by decide +kernel) (by decide +kernel)
  obtain ⟨r, hshake⟩ := exists_exactValue_shake word hfraction hq (by decide +kernel) (by decide +kernel)
  exact Double.clamp_mono (by decide +kernel) (Double.add_le_add_right h hshake)

theorem roundPlaces_clamp_le {x y : Double} (h : Double.clamp 0.0 1.0 x ≤ Double.clamp 0.0 1.0 y) :
    (Double.clamp 0.0 1.0 x).roundPlaces 3 ≤ (Double.clamp 0.0 1.0 y).roundPlaces 3 := by
  have hmeasures (x : Double) : ∃ q, Measures (Double.clamp 0.0 1.0 x) q :=
    Double.measures_of_le (Double.clamp_bounds x).1 (Double.clamp_bounds x).2 Double.measures_one
  obtain ⟨p, hp⟩ := hmeasures x
  obtain ⟨q, hq⟩ := hmeasures y
  exact Double.roundPlaces_mono hp hq h (by decide)

/-- Whatever the configuration and the draws are, a purchase that is no safer is found no safer, and is vetoed where the
other one is. -/
theorem assess_noSafer (h : NoSafer t t' u u') (limits : RiskLimits) (i : Instrument) (g : Generator) :
    (assess limits t u i g).1.risk ≤ (assess limits t' u' i g).1.risk ∧
      (assess limits t u i g).1.decline ≤ (assess limits t' u' i g).1.decline ∧
        ((assess limits t u i g).1.veto = true → (assess limits t' u' i g).1.veto = true) := by
  have hrisk := riskOf_le (total_charges_le limits h i) h.tolerance g.next.1
  have hdecline := declineOf_le hrisk g.next.2.next.1
  exact ⟨roundPlaces_clamp_le hrisk, roundPlaces_clamp_le hdecline, Number.reaches_of_le hrisk⟩

/-- A larger purchase, with a flag and for a more careful user, with limits of amounts that are not in order. -/
theorem assess_noSafer_of_spike :
    let t' := { Sample.purchase with amount := 600.0, riskFlags := ["velocity_spike"] }
    let u' := { Sample.user with tolerance := .low }
    let limits : RiskLimits := ⟨.float 0.75, .int 1000, .int 100, .int 500⟩
    NoSafer Sample.purchase t' Sample.user u' ∧
      let a := (assess limits Sample.purchase Sample.user (.card (Sample.card "a")) ⟨7, 0⟩).1
      let a' := (assess limits t' u' (.card (Sample.card "a")) ⟨7, 0⟩).1
      a.risk ≤ a'.risk ∧ a.decline ≤ a'.decline ∧ (a.veto = true → a'.veto = true) := by
  intro t' u' limits
  have h : NoSafer Sample.purchase t' Sample.user u' :=
    { amount := by decide +kernel, flags := by decide, country := rfl, inPerson := rfl, tolerance := by decide }
  exact ⟨h, assess_noSafer h limits (.card (Sample.card "a")) ⟨7, 0⟩⟩

end RiskAssessment

end WalletRouting
