import Mathlib.Data.Nat.Cast.Order.Field
import Mathlib.Tactic.Linarith
import Mathlib.Tactic.Positivity
import WalletRouting.Proofs.Number.Numeral
import WalletRouting.Proofs.Number.Rounding

/-! # The shortest text of a double

Every decimal that is near a double rounds to it, and is near no other. The shortest digits that are tried are near the
double they are sought for, for seventeen always are. So finite doubles with the same text are the same.
-/
namespace WalletRouting
set_option autoImplicit false

namespace Binary

theorem ratio_num (m : Nat) (e : Int) : ((ratio m e).1 : ℚ) = m * (2 : ℚ) ^ e * (ratio m e).2 := by
  cases e with
  | ofNat k => simp [ratio]
  | negSucc k =>
    rw [ratio, zpow_negSucc]
    simp

theorem ratio_div (m : Nat) (e : Int) : ((ratio m e).1 : ℚ) / (ratio m e).2 = m * (2 : ℚ) ^ e := by
  have hden := ratio_den_pos m e
  rw [ratio_num, mul_div_cancel_right₀]
  positivity

end Binary

namespace Decimal

open Double (Canonical)

variable {m n : Nat} {e f : Int} {v : ℚ}

/-- A number that rounds to digits and exponent. -/
structure Near (m : Nat) (e : Int) (v : ℚ) : Prop where
  low : (interval m e).low * (2 : ℚ) ^ (e - 2) ≤ v
  high : v ≤ (interval m e).high * (2 : ℚ) ^ (e - 2)
  odd : m % 2 = 1 → (interval m e).low * (2 : ℚ) ^ (e - 2) < v ∧ v < (interval m e).high * (2 : ℚ) ^ (e - 2)

theorem near_of_lt (hlow : (interval m e).low * (2 : ℚ) ^ (e - 2) < v)
    (hhigh : v < (interval m e).high * (2 : ℚ) ^ (e - 2)) : Near m e v :=
  ⟨hlow.le, hhigh.le, fun _ => ⟨hlow, hhigh⟩⟩

theorem Near.pos (h : Near m e v) (hm : 0 < m) : 0 < v := by
  refine lt_of_lt_of_le ?_ h.low
  have hlow : 0 < (interval m e).low := by
    simp only [interval]
    split <;> omega
  positivity

/-! ## No number is near two doubles -/

/-- What is near the one is below what is near the other, unless both are even and share a bound. -/
theorem Near.apart (h : Near m e v) (h' : Near n f v)
    (hle : (interval m e).high * (2 : ℚ) ^ (e - 2) ≤ (interval n f).low * (2 : ℚ) ^ (f - 2))
    (hstrict : m % 2 = 1 ∨ n % 2 = 1 ∨
      (interval m e).high * (2 : ℚ) ^ (e - 2) < (interval n f).low * (2 : ℚ) ^ (f - 2)) : False := by
  have hhigh := h.high
  have hlow := h'.low
  rcases hstrict with hm | hn | hlt
  · have := (h.odd hm).2
    linarith
  · have := (h'.odd hn).1
    linarith
  · linarith

theorem Near.not_of_lt_digits (h : Near m e v) (h' : Near n e v) (hlt : m < n) : False := by
  have hpow : (0 : ℚ) < (2 : ℚ) ^ (e - 2) := by positivity
  have hhigh : (interval m e).high = 4 * m + 2 := rfl
  have hlow : (interval n e).low = 4 * n - 1 ∨ (interval n e).low = 4 * n - 2 := by
    simp only [interval]
    split
    · exact Or.inl rfl
    · exact Or.inr rfl
  have hle : (interval m e).high ≤ (interval n e).low := by omega
  refine h.apart h' (by gcongr) ?_
  by_cases hodd : m % 2 = 1 ∨ n % 2 = 1
  · exact hodd.elim Or.inl fun hn => Or.inr (Or.inl hn)
  · refine Or.inr (Or.inr ?_)
    have hlt : (interval m e).high < (interval n e).low := by omega
    gcongr

theorem Near.not_of_lt_exponent (hm : Canonical m e) (hn : Canonical n f) (h : Near m e v) (h' : Near n f v)
    (hlt : e < f) : False := by
  have hpow : (0 : ℚ) < (2 : ℚ) ^ (e - 2) := by positivity
  have hdouble : 2 * (2 : ℚ) ^ (e - 2) ≤ (2 : ℚ) ^ (f - 2) := by
    rw [← zpow_one_add₀ two_ne_zero]
    exact zpow_le_zpow_right₀ one_le_two (by omega)
  have hdigits := hm.digits
  have hleast := hm.least
  -- Its exponent is not the least, so that the larger double has all its digits.
  have hfull : 2 ^ 52 ≤ n := hn.full.resolve_right (by omega)
  have hhigh : (interval m e).high = 4 * m + 2 := rfl
  have hlow : 2 ^ 54 - 1 ≤ (interval n f).low := by
    simp only [interval, Nat.pow_eq]
    split <;> omega
  have hscaled : ((interval n f).low * 2 : Nat) * (2 : ℚ) ^ (e - 2) ≤ (interval n f).low * (2 : ℚ) ^ (f - 2) := by
    push_cast
    rw [mul_assoc]
    gcongr
  have hle : ((interval m e).high : ℚ) * (2 : ℚ) ^ (e - 2) ≤ ((interval n f).low * 2 : Nat) * (2 : ℚ) ^ (e - 2) := by
    have : (interval m e).high ≤ (interval n f).low * 2 := by omega
    gcongr
  refine h.apart h' (hle.trans hscaled) ?_
  by_cases hodd : m % 2 = 1
  · exact Or.inl hodd
  · refine Or.inr (Or.inr (lt_of_lt_of_le ?_ hscaled))
    have : (interval m e).high < (interval n f).low * 2 := by omega
    gcongr

theorem Near.unique (hm : Canonical m e) (hn : Canonical n f) (h : Near m e v) (h' : Near n f v) : m = n ∧ e = f := by
  rcases lt_trichotomy e f with hlt | rfl | hlt
  · exact (h.not_of_lt_exponent hm hn h' hlt).elim
  · rcases lt_trichotomy m n with hlt | rfl | hlt
    · exact (h.not_of_lt_digits h' hlt).elim
    · exact ⟨rfl, rfl⟩
    · exact (h'.not_of_lt_digits h hlt).elim
  · exact (h'.not_of_lt_exponent hn hm h hlt).elim

/-! ## What is tried on a grid -/

theorem scaled_lt_iff (a p q b r s : Nat) (hq : 0 < q) (hs : 0 < s) :
    (a : ℚ) * (p / q) < b * (r / s) ↔ a * p * s < b * r * q := by
  rw [← mul_div_assoc, ← mul_div_assoc, div_lt_div_iff₀ (by positivity) (by positivity)]
  norm_cast

theorem scaled_le_iff (a p q b r s : Nat) (hq : 0 < q) (hs : 0 < s) :
    (a : ℚ) * (p / q) ≤ b * (r / s) ↔ a * p * s ≤ b * r * q := by
  rw [← mul_div_assoc, ← mul_div_assoc, div_le_div_iff₀ (by positivity) (by positivity)]
  norm_cast

/-- The test of nearness in whole numbers, with the units of both scales as fractions. -/
theorem crosswise_iff {unitNum unitDen tenNum tenDen : Nat} (hunitPos : 0 < unitDen) (htenPos : 0 < tenDen)
    (hunit : (2 : ℚ) ^ (e - 2) = unitNum / unitDen) (digits : Nat) :
    (if (interval m e).closed = true then
      decide ((interval m e).low * unitNum * tenDen ≤ digits * tenNum * unitDen) &&
        decide (digits * tenNum * unitDen ≤ (interval m e).high * unitNum * tenDen)
    else decide ((interval m e).low * unitNum * tenDen < digits * tenNum * unitDen) &&
        decide (digits * tenNum * unitDen < (interval m e).high * unitNum * tenDen)) = true ↔
      Near m e (digits * (tenNum / tenDen)) := by
  have hlow := scaled_le_iff (interval m e).low unitNum unitDen digits tenNum tenDen hunitPos htenPos
  have hhigh := scaled_le_iff digits tenNum tenDen (interval m e).high unitNum unitDen htenPos hunitPos
  have hlow' := scaled_lt_iff (interval m e).low unitNum unitDen digits tenNum tenDen hunitPos htenPos
  have hhigh' := scaled_lt_iff digits tenNum tenDen (interval m e).high unitNum unitDen htenPos hunitPos
  rw [← hunit] at hlow hhigh hlow' hhigh'
  split
  · next heven =>
    rw [Bool.and_eq_true, decide_eq_true_iff, decide_eq_true_iff, ← hlow, ← hhigh]
    exact ⟨fun h => ⟨h.1, h.2, fun hodd => absurd (of_decide_eq_true heven) (by omega)⟩, fun h => ⟨h.low, h.high⟩⟩
  · next hodd =>
    rw [Bool.and_eq_true, decide_eq_true_iff, decide_eq_true_iff, ← hlow', ← hhigh']
    refine ⟨fun h => near_of_lt h.1 h.2, fun h => h.odd ?_⟩
    have hne : m % 2 ≠ 0 := fun heven => hodd (decide_eq_true heven)
    omega

theorem holds_iff (digits : Nat) (exponent : Int) :
    (interval m e).holds (Binary.ratio 1 (e - 2)).1 (Binary.ratio 1 (e - 2)).2 exponent digits = true ↔
      Near m e (digits * (10 : ℚ) ^ exponent) := by
  have hunitPos := Binary.ratio_den_pos 1 (e - 2)
  have hunit : (2 : ℚ) ^ (e - 2) = (Binary.ratio 1 (e - 2)).1 / (Binary.ratio 1 (e - 2)).2 := by
    rw [Binary.ratio_div, Nat.cast_one, one_mul]
  unfold Interval.holds
  cases exponent with
  | ofNat k =>
    have hten : (10 : ℚ) ^ (Int.ofNat k) = ((Nat.pow 10 k : Nat) : ℚ) / (1 : Nat) := by simp
    rw [hten]
    exact crosswise_iff hunitPos Nat.one_pos hunit digits
  | negSucc k =>
    have hten : (10 : ℚ) ^ (Int.negSucc k) = ((1 : Nat) : ℚ) / (Nat.pow 10 (k + 1) : Nat) := by simp [zpow_negSucc]
    rw [hten]
    exact crosswise_iff hunitPos (Nat.pow_pos (by norm_num)) hunit digits

theorem scaled_num (num den : Nat) (hden : 0 < den) (exponent : Int) :
    0 < (scaled num den exponent).2 ∧
      ((scaled num den exponent).1 : ℚ) / (scaled num den exponent).2 * (10 : ℚ) ^ exponent = num / den := by
  cases exponent with
  | ofNat k =>
    refine ⟨Nat.mul_pos hden (Nat.pow_pos (by norm_num)), ?_⟩
    have hne : (den : ℚ) ≠ 0 := by positivity
    simp only [scaled, Int.ofNat_eq_natCast, zpow_natCast, Nat.pow_eq]
    push_cast
    field_simp
  | negSucc k =>
    refine ⟨hden, ?_⟩
    simp only [scaled, zpow_negSucc, Nat.pow_eq]
    push_cast
    field_simp

theorem below_le (m : Nat) (e exponent : Int) :
    let s := scaled (Binary.ratio m e).1 (Binary.ratio m e).2 exponent
    ((s.1 / s.2 : Nat) : ℚ) * (10 : ℚ) ^ exponent ≤ m * (2 : ℚ) ^ e ∧
      m * (2 : ℚ) ^ e < ((s.1 / s.2 + 1 : Nat) : ℚ) * (10 : ℚ) ^ exponent := by
  intro s
  have hden := Binary.ratio_den_pos m e
  obtain ⟨hpos, hvalue⟩ := scaled_num (Binary.ratio m e).1 (Binary.ratio m e).2 hden exponent
  have hpow : (0 : ℚ) < (10 : ℚ) ^ exponent := by positivity
  rw [Binary.ratio_div] at hvalue
  rw [← hvalue]
  have hle : ((s.1 / s.2 : Nat) : ℚ) ≤ s.1 / s.2 := Nat.cast_div_le
  have hlt : (s.1 : ℚ) / s.2 < (s.1 / s.2 + 1 : Nat) := by
    rw [div_lt_iff₀ (by positivity)]
    exact_mod_cast Nat.lt_div_mul_add hpos |>.trans_eq (by ring)
  exact ⟨by gcongr, by gcongr⟩

theorem near_of_onGrid {exponent : Int} {d : Decimal} (h : onGrid m e exponent = some d) : Near m e d.value := by
  unfold onGrid at h
  dsimp only at h
  split at h
  · next hbelow habove =>
    cases h
    rw [holds_iff] at hbelow habove
    have hle := le_roundHalfEven (scaled (Binary.ratio m e).1 (Binary.ratio m e).2 exponent).1
      (scaled (Binary.ratio m e).1 (Binary.ratio m e).2 exponent).2
    have hge := roundHalfEven_le_succ (scaled (Binary.ratio m e).1 (Binary.ratio m e).2 exponent).1
      (scaled (Binary.ratio m e).1 (Binary.ratio m e).2 exponent).2
    -- Where both neighbours are near the rounded one is taken, and it is either of them.
    rcases Nat.le_succ_iff.mp hge with hge | heq
    · rw [value, Nat.le_antisymm hge hle]
      exact hbelow
    · rw [value, heq]
      exact habove
  · next hbelow _ =>
    cases h
    exact (holds_iff ..).mp hbelow
  · next _ habove =>
    cases h
    exact (holds_iff ..).mp habove
  · cases h

/-- A relative error of half a unit in the seventeenth digit is small enough. -/
theorem near_of_close (hm : 0 < m) (hlt : m < 2 ^ 53) (h : |v - m * (2 : ℚ) ^ e| * (2 * 10 ^ 16) ≤ m * (2 : ℚ) ^ e) :
    Near m e v := by
  have hpow : (0 : ℚ) < (2 : ℚ) ^ (e - 2) := by positivity
  have hquarter : m * (2 : ℚ) ^ e = 4 * (m * (2 : ℚ) ^ (e - 2)) := by
    rw [zpow_sub₀ two_ne_zero]
    ring
  have hhigh : ((interval m e).high : ℚ) = 4 * m + 2 := by
    simp only [interval]
    push_cast
    ring
  have hdigits : m * (2 : ℚ) ^ (e - 2) ≤ (2 ^ 53 : ℚ) * (2 : ℚ) ^ (e - 2) := by
    have : (m : ℚ) ≤ 2 ^ 53 := by exact_mod_cast hlt.le
    gcongr
  obtain ⟨hbelow, habove⟩ := abs_le.mp ((le_div_iff₀ (by norm_num)).mpr h)
  rw [hquarter] at hbelow habove
  have hlow : (interval m e).low * (2 : ℚ) ^ (e - 2) < v := by
    simp only [interval, Nat.pow_eq]
    split
    · next hfull =>
      rw [Nat.cast_sub (by omega), hfull.1]
      rw [hfull.1] at hbelow
      push_cast at hbelow ⊢
      linarith
    · rw [Nat.cast_sub (by omega)]
      push_cast
      linarith
  refine near_of_lt hlow ?_
  rw [hhigh]
  linarith

theorem onGrid_isSome (hm : 0 < m) (hlt : m < 2 ^ 53) {exponent : Int}
    (hfine : (10 : ℚ) ^ exponent * 10 ^ 16 ≤ m * (2 : ℚ) ^ e) : (onGrid m e exponent).isSome = true := by
  obtain ⟨hbelow, habove⟩ := below_le m e exponent
  unfold onGrid
  dsimp only
  split
  · rfl
  · rfl
  · rfl
  · next hfar hfar' =>
    rw [← Bool.not_eq_true, holds_iff] at hfar hfar'
    push_cast at habove hfar'
    rcases le_total (m * (2 : ℚ) ^ e - ((scaled (Binary.ratio m e).1 (Binary.ratio m e).2 exponent).1 /
      (scaled (Binary.ratio m e).1 (Binary.ratio m e).2 exponent).2 : Nat) * (10 : ℚ) ^ exponent)
      ((10 : ℚ) ^ exponent / 2) with hnear | hnear
    · refine absurd (near_of_close hm hlt ?_) hfar
      rw [abs_sub_comm, abs_of_nonneg (by linarith)]
      linarith
    · refine absurd (near_of_close hm hlt ?_) hfar'
      rw [abs_of_nonneg (by linarith)]
      linarith

/-! ## The digits that are found -/

theorem den_le_leadingZeros {num den : Nat} {fuel k : Nat} (h : den ≤ num * 10 ^ (k + fuel)) :
    den ≤ num * 10 ^ leadingZeros num den fuel k := by
  induction fuel generalizing k with
  | zero => exact h
  | succ fuel ih =>
    unfold leadingZeros
    split
    · assumption
    · exact ih (by rwa [Nat.add_right_comm])

theorem pow_digitCount_le {n : Nat} (hn : 0 < n) : 10 ^ (digitCount n - 1) ≤ n := by
  by_contra hlt
  have hpositive : 0 < digitCount n - 1 := by
    by_contra hzero
    rw [Nat.le_zero.mp (not_lt.mp hzero)] at hlt
    exact hlt hn
  have hlength := (Nat.length_toDigits_le_iff (by norm_num) hpositive).mpr (not_le.mp hlt)
  unfold digitCount at *
  omega

theorem zpow_leadingExponent_le {num den : Nat} (hden : 0 < den) (h : den ≤ num * 10 ^ (1 + 330)) :
    (10 : ℚ) ^ leadingExponent num den ≤ num / den := by
  have hpos : (0 : ℚ) < den := by positivity
  unfold leadingExponent
  split
  · next hle =>
    have hquotient : 0 < num / den := Nat.div_pos hle hden
    have hlength : 0 < digitCount (num / den) := Nat.length_toDigits_pos
    have hexponent : Int.ofNat (digitCount (num / den)) - 1 = ((digitCount (num / den) - 1 : Nat) : Int) := by
      simp only [Int.ofNat_eq_natCast]
      omega
    rw [hexponent, zpow_natCast]
    calc
      (10 : ℚ) ^ (digitCount (num / den) - 1) ≤ ((num / den : Nat) : ℚ) := by
        exact_mod_cast pow_digitCount_le hquotient
      _ ≤ num / den := Nat.cast_div_le
  · have hle := den_le_leadingZeros h
    rw [Int.ofNat_eq_natCast, zpow_neg, zpow_natCast, ← one_div, div_le_div_iff₀ (by positivity) hpos, one_mul]
    exact_mod_cast hle

/-- The last grid that is tried need not be reached. -/
theorem near_coarsest (top : Int) {fuel count last : Nat} (hcount : count ≤ last) (hlast : last < count + fuel)
    (h : (onGrid m e (top - (Int.ofNat last - 1))).isSome = true) : Near m e (coarsest m e top fuel count).value := by
  induction fuel generalizing count with
  | zero => omega
  | succ fuel ih =>
    unfold coarsest
    split
    · next d hd => exact near_of_onGrid hd
    · next hnone =>
      have hne : count ≠ last := by
        rintro rfl
        rw [hnone] at h
        cases h
      exact ih (by omega) (by omega)

theorem one_le_least : (1 : ℚ) ≤ (2 : ℚ) ^ (-1074 : Int) * 10 ^ (1 + 330) := by
  have hexponent : (-1074 : Int) = -((13 * 82 + 8 : Nat) : Int) := rfl
  have hplaces : 1 + 330 = 4 * 82 + 3 := rfl
  rw [hexponent, hplaces, zpow_neg, zpow_natCast, ← div_eq_inv_mul, one_le_div₀ (by positivity), pow_add, pow_add,
    pow_mul, pow_mul]
  gcongr <;> norm_num

theorem near_shortest (hm : 0 < m) (h : Canonical m e) : Near m e (shortest m e).value := by
  have hden := Binary.ratio_den_pos m e
  have hleast : (2 : ℚ) ^ (-1074 : Int) ≤ m * (2 : ℚ) ^ e := by
    calc
      (2 : ℚ) ^ (-1074 : Int) ≤ (2 : ℚ) ^ e := zpow_le_zpow_right₀ one_le_two h.least
      _ ≤ m * (2 : ℚ) ^ e := le_mul_of_one_le_left (by positivity) (by exact_mod_cast hm)
  have hfound : (Binary.ratio m e).2 ≤ (Binary.ratio m e).1 * 10 ^ (1 + 330) := by
    have hten := one_le_least
    generalize 1 + 330 = places at hten ⊢
    have hone : (1 : ℚ) ≤ m * (2 : ℚ) ^ e * 10 ^ places := hten.trans (by gcongr)
    rw [← Binary.ratio_div, div_mul_eq_mul_div, one_le_div₀ (by positivity)] at hone
    exact_mod_cast hone
  have htop := zpow_leadingExponent_le hden hfound
  rw [Binary.ratio_div] at htop
  -- Seventeen digits are tried at the latest, and they are always near enough.
  have hgrid : (onGrid m e (leadingExponent (Binary.ratio m e).1 (Binary.ratio m e).2 - (Int.ofNat 17 - 1))).isSome =
      true := by
    refine onGrid_isSome hm h.digits ?_
    have hsixteen : Int.ofNat 17 - 1 = ((16 : Nat) : Int) := rfl
    rwa [hsixteen, zpow_sub₀ (by norm_num), zpow_natCast, div_mul_cancel₀ _ (by positivity)]
  unfold shortest
  rw [if_neg hm.ne']
  dsimp only
  rw [value_normal]
  exact near_coarsest _ (by norm_num) (by norm_num) hgrid

/-! ## How far down digits reach -/

theorem le_exponent_stripZeros (fuel : Nat) (d : Decimal) : d.exponent ≤ (stripZeros fuel d).exponent := by
  induction fuel generalizing d with
  | zero => exact le_rfl
  | succ fuel ih =>
    unfold stripZeros
    split
    · exact (Int.le_add_of_nonneg_right Int.one_nonneg).trans (ih _)
    · exact le_rfl

theorem leadingZeros_le (num den fuel k : Nat) : leadingZeros num den fuel k ≤ k + fuel := by
  induction fuel generalizing k with
  | zero => exact le_rfl
  | succ fuel ih =>
    unfold leadingZeros
    split
    · exact Nat.le_add_right _ _
    · exact (ih (k + 1)).trans (by omega)

theorem le_leadingExponent (num den : Nat) : -331 ≤ leadingExponent num den := by
  have hzeros := leadingZeros_le num den 330 1
  unfold leadingExponent
  simp only [Int.ofNat_eq_natCast]
  split <;> omega

theorem exponent_of_onGrid {exponent : Int} {d : Decimal} (h : onGrid m e exponent = some d) :
    d.exponent = exponent := by
  unfold onGrid at h
  dsimp only at h
  split at h <;> cases h <;> rfl

theorem le_exponent_coarsest {top : Int} (htop : -331 ≤ top) {fuel count : Nat} (hcount : count + fuel ≤ 18) :
    -347 ≤ (coarsest m e top fuel count).exponent := by
  induction fuel generalizing count with
  | zero =>
    have hleading := le_leadingExponent (Binary.ratio m e).1 (Binary.ratio m e).2
    simp only [coarsest, roundedTo, Int.ofNat_eq_natCast]
    omega
  | succ fuel ih =>
    unfold coarsest
    split
    · next d hd =>
      rw [exponent_of_onGrid hd]
      simp only [Int.ofNat_eq_natCast]
      omega
    · exact ih (by omega)

theorem le_exponent_shortest (hm : 0 < m) : -347 ≤ (shortest m e).exponent := by
  unfold shortest
  rw [if_neg hm.ne']
  exact (le_exponent_coarsest (le_leadingExponent _ _) le_rfl).trans (le_exponent_stripZeros _ _)

theorem Near.digits_ne_zero {d : Decimal} (h : Near m e d.value) (hm : 0 < m) : d.digits ≠ 0 := by
  intro hzero
  have hpos := h.pos hm
  rw [value, hzero, Nat.cast_zero, zero_mul] at hpos
  exact hpos.false

end Decimal

theorem Binary.canonical_ofFloat {x : Double} {negative : Bool} {m : Nat} {e : Int}
    (h : ofFloat x = .finite negative m e) : Double.Canonical m e := by
  have hlt : x.toBits.toNat % Nat.pow 2 52 < 2 ^ 52 := Nat.mod_lt _ (by decide)
  have hpow : Nat.pow 2 52 = 2 ^ 52 := rfl
  unfold ofFloat at h
  dsimp only at h
  split at h
  · split at h <;> cases h
  · split at h
    · cases h
      exact ⟨by omega, le_rfl, Or.inr rfl⟩
    · next hleast =>
      cases h
      refine ⟨by omega, ?_, Or.inl (by omega)⟩
      simp only [Int.ofNat_eq_natCast]
      omega

namespace Double

theorem exists_of_finite {x : Double} (hx : x.finite = true) :
    ∃ negative m e, Binary.ofFloat x = .finite negative m e := by
  unfold finite at hx
  split at hx
  · exact ⟨_, _, _, ‹_›⟩
  · cases hx

/-- The text of a finite double is a sign and a numeral near it; zero has a sign too. The numeral does not reach far
down, and begins with no zero that it could do without. -/
theorem exists_numeral_exactText {x : Double} {negative : Bool} {m : Nat} {e : Int}
    (h : Binary.ofFloat x = .finite negative m e) :
    ∃ n : Numeral, x.exactText.toList = Layout.sign negative ++ n.text ∧
      (m = 0 ∧ n.value = 0 ∨ 0 < m ∧ Decimal.Near m e n.value) ∧ -347 ≤ n.last ∧ n.Plain := by
  unfold exactText writeWith
  rw [h]
  dsimp only
  split
  · next hzero =>
    obtain ⟨n, htext, hspells⟩ := Layout.exists_numeral negative (d := ⟨0, 0⟩) fun _ => rfl
    exact ⟨n, htext, Or.inl ⟨hzero, by rw [hspells.value, Decimal.value, Nat.cast_zero, zero_mul]⟩,
      hspells.le_last (by decide) (by decide), hspells.plain⟩
  · next hne =>
    have hm : 0 < m := Nat.pos_of_ne_zero hne
    have hnear : Decimal.Near m e (Decimal.shortest m e).normal.value := by
      rw [Decimal.value_normal]
      exact Decimal.near_shortest hm (Binary.canonical_ofFloat h)
    obtain ⟨n, htext, hspells⟩ := Layout.exists_numeral negative fun hzero =>
      absurd hzero (hnear.digits_ne_zero hm)
    have hexponent : -347 ≤ (Decimal.shortest m e).normal.exponent :=
      (Decimal.le_exponent_shortest hm).trans (Decimal.le_exponent_stripZeros _ _)
    exact ⟨n, htext, Or.inr ⟨hm, by rwa [hspells.value]⟩, hspells.le_last hexponent (by decide), hspells.plain⟩

theorem ofFloat_eq_of_exactText {x y : Double} (hx : x.finite = true) (hy : y.finite = true)
    (h : x.exactText = y.exactText) : Binary.ofFloat x = Binary.ofFloat y := by
  obtain ⟨s, m, e, hbx⟩ := exists_of_finite hx
  obtain ⟨t, n, f, hby⟩ := exists_of_finite hy
  obtain ⟨k, hk, hm, -⟩ := exists_numeral_exactText hbx
  obtain ⟨l, hl, hn, -⟩ := exists_numeral_exactText hby
  rw [h, hl] at hk
  obtain ⟨rfl, htext⟩ := Layout.sign_append_inj hk
  have hvalue : l.value = k.value := by rw [← Numeral.read_text, ← Numeral.read_text, htext]
  have hcx := Binary.canonical_ofFloat hbx
  have hcy := Binary.canonical_ofFloat hby
  rw [hvalue] at hn
  rw [hbx, hby]
  rcases hm with ⟨rfl, hzero⟩ | ⟨hm, hnear⟩ <;> rcases hn with ⟨rfl, hzero'⟩ | ⟨hn, hnear'⟩
  · have he : e = -1074 := hcx.full.resolve_left (by norm_num)
    have hf : f = -1074 := hcy.full.resolve_left (by norm_num)
    rw [he, hf]
  · exact absurd hzero (hnear'.pos hn).ne'
  · exact absurd hzero' (hnear.pos hm).ne'
  · obtain ⟨rfl, rfl⟩ := hnear.unique hcx hcy hnear'
    rfl

end Double

end WalletRouting
