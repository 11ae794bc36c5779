import WalletRouting.Proofs.Score.Scale

/-! # Rates and what they are worth

A higher rate never scores less: fifteen times as much, and more points on top, keep the order, and so does the scale.
But a rate of zero is taken for none, and then the default rate counts in its place.
-/
namespace WalletRouting
set_option autoImplicit false

namespace Terms

/-- Where the rate for a category stands. -/
def rateKey (category : String) : String := if category = "" then "default" else category

def withRate (i : Terms) (category : String) (x : Double) : Terms :=
  { i with rewards := i.rewards.put (rateKey category) x }

/-- The rate that counts where the rate for the category does not. -/
def otherRate (i : Terms) (category : String) : Double :=
  if rateKey category = "default" then 0.0 else (nonzero (i.rewards.get? "default")).getD 0.0

theorem nonzero_some (x : Double) : nonzero (some x) = if x == 0.0 then none else some x := rfl

/-- A rate that is set counts, unless it is zero. -/
theorem categoryRate_withRate (i : Terms) (category : String) (x : Double) :
    (i.withRate category x).categoryRate category = if x == 0.0 then i.otherRate category else x := by
  have hset : (i.withRate category x).rewards.get? (rateKey category) = some x := Keyed.get?_put_self _ _ _
  unfold rateKey at hset
  unfold categoryRate categoryRate?
  rw [hset, nonzero_some]
  by_cases hzero : (x == 0.0) = true
  · rw [if_pos hzero, if_pos hzero]
    unfold otherRate
    dsimp only
    by_cases hkey : rateKey category = "default"
    · have hdefault : (i.withRate category x).rewards.get? "default" = some x := by
        rw [← hkey]
        exact Keyed.get?_put_self _ _ _
      rw [if_pos hkey, hdefault, nonzero_some, if_pos hzero]
      rfl
    · have hdefault : (i.withRate category x).rewards.get? "default" = i.rewards.get? "default" :=
        Keyed.get?_put_of_ne (Ne.symm hkey) x i.rewards
      rw [if_neg hkey, hdefault]
  · rw [if_neg hzero, if_neg hzero]
    rfl

end Terms

namespace Subscore

open Double (clamp place Infinite Measures)

variable (i : Terms) (t : Transaction)

/-- The points for a rate, with those for a signup bonus within reach and for cashback. -/
def rewardPoints (rate : Double) : Double :=
  let raw := rate * 15.0
  let raw := if (bonusReach? i.signupBonus t.amount).isSome then raw + 20.0 else raw
  if 0 < i.cashbackRate then raw + i.cashbackRate * 5.0 else raw

/-- Points without cashback. -/
def ratePoints (rate : Double) : Double :=
  if (bonusReach? i.signupBonus t.amount).isSome then rate * 15.0 + 20.0 else rate * 15.0

theorem rewardPoints_eq (rate : Double) :
    rewardPoints i t rate =
      if 0 < i.cashbackRate then ratePoints i t rate + i.cashbackRate * 5.0 else ratePoints i t rate := rfl

theorem ratePoints_mono {r s : Double} (h : r ≤ s) : ratePoints i t r ≤ ratePoints i t s := by
  have hfifteen : Measures 15.0 (15 : Nat) := Double.measures_ofNat (n := 15) (by decide)
  have htwenty : Measures 20.0 (20 : Nat) := Double.measures_ofNat (n := 20) (by decide)
  have hproduct := Double.mul_le_mul_right h hfifteen (by norm_num)
  unfold ratePoints
  split
  · exact Double.add_le_add_right hproduct (Double.exactValue_of_measures htwenty)
  · exact hproduct

theorem clamp_rewardPoints_mono {r s : Double} (h : r ≤ s) :
    clamp 0 100 (rewardPoints i t r) ≤ clamp 0 100 (rewardPoints i t s) := by
  have hpoints := ratePoints_mono i t h
  have hbounds : (0 : Double) ≤ 100 := by decide
  rw [rewardPoints_eq, rewardPoints_eq]
  split
  · next hpos =>
    have hfive : Measures 5.0 (5 : Nat) := Double.measures_ofNat (n := 5) (by decide)
    rcases Double.infinite_or_measures (Double.zero_le_mul (Double.le_of_lt hpos) hfive (by norm_num)) with
      hinfinite | ⟨q, hq⟩
    · -- Endless cashback makes the most of any rate.
      rw [Double.clamp_of_not_lt (by decide) (hinfinite.not_add_lt _ _),
        Double.clamp_of_not_lt (by decide) (hinfinite.not_add_lt _ _)]
      decide
    · exact Double.clamp_mono hbounds (Double.add_le_add_right hpoints (Double.exactValue_of_measures hq))
  · exact Double.clamp_mono hbounds hpoints

theorem not_rewardPoints_lt {r : Double} (h : place r = none) (x : Double) : ¬rewardPoints i t r < x := by
  have hproduct := Double.place_mul_of_none h 15.0
  have hpoints : place (ratePoints i t r) = none := by
    unfold ratePoints
    split
    · exact Double.place_add_of_none hproduct 20.0
    · exact hproduct
  apply Double.not_lt_of_none
  rw [rewardPoints_eq]
  split
  · exact Double.place_add_of_none hpoints _
  · exact hpoints

/-- What the points for a rate come to on the scale. -/
def rateScore (rate : Double) : Double := (clamp 0 100 (rewardPoints i t rate)).roundPlaces 2

theorem rateScore_mono {r s : Double} (h : r ≤ s) : rateScore i t r ≤ rateScore i t s :=
  Double.roundPlaces_clamp_mono (clamp_rewardPoints_mono i t h)

theorem rateScore_le_of_none {s : Double} (h : place s = none) (r : Double) : rateScore i t r ≤ rateScore i t s := by
  apply Double.roundPlaces_clamp_mono
  rw [Double.clamp_of_not_lt (by decide) (not_rewardPoints_lt i t h 100)]
  exact (Double.clamp_between (by decide) _).2

theorem rateScore_le_self (r : Double) : rateScore i t r ≤ rateScore i t r := by
  obtain ⟨-, p, -, hp, -⟩ := Double.le_iff.mp (Double.roundPlaces_clamp_bounds (rewardPoints i t r)).1
  exact Double.le_self hp

theorem rateScore_le_of_not_le {r s : Double} (hs : s ≤ s) (h : ¬r ≤ s) : rateScore i t s ≤ rateScore i t r := by
  cases hr : place r with
  | none => exact rateScore_le_of_none i t hr s
  | some p =>
    obtain ⟨q, -, hq, -⟩ := Double.le_iff.mp hs
    refine rateScore_mono i t (Double.le_iff.mpr ⟨q, p, hq, hr, fun hprecedes => h ?_⟩)
    exact Double.le_of_lt (Double.lt_iff.mpr ⟨p, q, hr, hq, hprecedes⟩)

/-- What an instrument scores with a rate for the category of a purchase. -/
def scoreWith (x : Double) : Double := (rewards (i.withRate t.category x) t).normalized

theorem scoreWith_eq (x : Double) :
    scoreWith i t x = rateScore i t (if x == 0.0 then i.otherRate t.category else x) := by
  rw [← Terms.categoryRate_withRate]
  rfl

theorem scoreWith_of_not_pos {x : Double} (hx : 0 ≤ x) (h : ¬0 < x) :
    scoreWith i t x = rateScore i t (i.otherRate t.category) := by
  have hzero : (x == 0.0) = true := by
    rw [← Bool.not_eq_false]
    exact fun hne => h (Double.pos_of_beq_zero hx hne)
  rw [scoreWith_eq, if_pos hzero]

theorem scoreWith_of_pos {x : Double} (h : 0 < x) : scoreWith i t x = rateScore i t x := by
  have hnonzero : ¬(x == 0.0) = true := fun hzero =>
    Double.not_lt_self x ((Double.lt_congr (Double.place_of_beq hzero).symm rfl).mp h)
  rw [scoreWith_eq, if_neg hnonzero]

/-- A better rate scores no less, unless the worse one is zero and the default rate that counts for it is better
still. -/
theorem rewards_of_better_rate {a b : Double} (ha : 0 ≤ a) (hab : a ≤ b) :
    (0 < a ∨ ¬0 < b ∨ i.otherRate t.category ≤ b → scoreWith i t a ≤ scoreWith i t b) ∧
    (¬0 < a → scoreWith i t a = scoreWith i t (i.otherRate t.category)) ∧
    (¬0 < a → 0 < b → ¬i.otherRate t.category ≤ b → scoreWith i t b ≤ scoreWith i t a) := by
  have hb : 0 ≤ b := Double.le_trans ha hab
  refine ⟨fun h => ?_, fun hzero => ?_, fun hzero hpos hnot => ?_⟩
  · by_cases hpos : 0 < a
    · rw [scoreWith_of_pos i t hpos, scoreWith_of_pos i t (Double.lt_of_lt_of_le hpos hab)]
      exact rateScore_mono i t hab
    · rw [scoreWith_of_not_pos i t ha hpos]
      by_cases hposb : 0 < b
      · rw [scoreWith_of_pos i t hposb]
        exact rateScore_mono i t ((h.resolve_left hpos).resolve_left (not_not_intro hposb))
      · rw [scoreWith_of_not_pos i t hb hposb]
        exact rateScore_le_self i t _
  · rw [scoreWith_of_not_pos i t ha hzero, scoreWith_eq, ite_self]
  · obtain ⟨-, p, -, hp, -⟩ := Double.le_iff.mp hb
    rw [scoreWith_of_not_pos i t ha hzero, scoreWith_of_pos i t hpos]
    exact rateScore_le_of_not_le i t (Double.le_self hp) hnot

theorem rewards_of_better_rate_for_dining :
    let i := { (Sample.card "a").toTerms with rewards := [("default", 3.0)], cashbackRate := 1.0 }
    let t := { Sample.purchase with category := "dining" }
    scoreWith i t 0.5 ≤ scoreWith i t 2.0 ∧ scoreWith i t 0.0 = scoreWith i t 3.0 := by
  intro i t
  exact ⟨(rewards_of_better_rate i t (by decide) (by decide)).1 (Or.inl (by decide)),
    (rewards_of_better_rate i t (b := 1.0) (by decide) (by decide)).2.1 (by decide)⟩

/-- A rate of zero scores as the default rate does, and one above zero less. -/
theorem rewards_fall_with_better_rate :
    let i := { (Sample.card "a").toTerms with rewards := [("dining", 0.0), ("default", 3.0)] }
    let t := { Sample.purchase with category := "dining" }
    (0 : Double) ≤ 0.0 ∧ (0.0 : Double) ≤ 1.0 ∧ scoreWith i t 0.0 = 45.0 ∧ scoreWith i t 1.0 = 15.0 ∧
      ¬scoreWith i t 0.0 ≤ scoreWith i t 1.0 := by
  decide +kernel

end Subscore

end WalletRouting
