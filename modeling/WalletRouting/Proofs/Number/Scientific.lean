import WalletRouting.Proofs.Number.Shortest
import WalletRouting.Proofs.Number.Whole

/-! # Numbers in scientific notation

Digits and a power of ten make the double that their value is rounded to, by a table of the powers that are doubles where
the digits are few, and exactly otherwise.
-/
namespace WalletRouting
set_option autoImplicit false

namespace Double

open Float.Model (Format UnpackedFloat)
open Float.Model.UnpackedFloat

variable {x y : Double} {p q : ℚ}

theorem place_powerOfTen (k : Fin 23) :
    (place (getElem Float.exactlyRepresentablePowersOfTen k.val k.isLt)).any (fun p =>
      p.1 = 1 ∧ -60 ≤ p.2.1 ∧ 0 ≤ p.2.2 ∧ p.2.2 * 2 ^ (p.2.1 + 60).toNat = 10 ^ k.val * 2 ^ 60) = true := by
  revert k
  decide

theorem measures_powerOfTen {k : Nat} (hk : k < 23) :
    Measures (getElem Float.exactlyRepresentablePowersOfTen k hk) ((10 : ℚ) ^ k) := by
  have hplace := place_powerOfTen ⟨k, hk⟩
  cases h : place (getElem Float.exactlyRepresentablePowersOfTen k hk) with
  | none =>
    rw [h] at hplace
    cases hplace
  | some r =>
    rw [h] at hplace
    obtain ⟨kind, e, m⟩ := r
    simp only [Option.any_some, decide_eq_true_eq] at hplace
    obtain ⟨rfl, he, hm, hvalue⟩ := hplace
    obtain ⟨m, rfl⟩ := Int.eq_ofNat_of_zero_le hm
    have hcast : (m : ℚ) * (2 : ℚ) ^ (e + 60) = (10 : ℚ) ^ k * 2 ^ 60 := by
      rw [← Int.toNat_of_nonneg (show 0 ≤ e + 60 by omega), zpow_natCast]
      exact_mod_cast hvalue
    have hpower : (m : ℚ) * (2 : ℚ) ^ e = (10 : ℚ) ^ k := by
      rw [zpow_add₀ two_ne_zero, ← mul_assoc] at hcast
      exact mul_right_cancel₀ (by positivity) hcast
    rw [← hpower]
    exact measures_of_place h

theorem measures_toFloat {n : Nat} (hn : n < 2 ^ 53) : Measures n.toUInt64.toFloat n := by
  refine measures_of_spot hn ?_
  have hsize : UInt64.size = 2 ^ 64 := rfl
  have hsame : n.toUInt64.toNat = n := UInt64.toNat_ofNat_of_lt' (by omega)
  have hnormalize := place_normalize n.toUInt64.toNat 0
  rw [zpow_zero, mul_one] at hnormalize
  have hcast : (n.toUInt64.toNat : ℚ) = n := by rw [hsame]
  rw [← hcast]
  exact hnormalize

/-- The number that digits and a power of ten stand for. -/
def scientific (m : Nat) (negative : Bool) (e : Nat) : ℚ := if negative then m / 10 ^ e else m * 10 ^ e

theorem place_model_up (m : Nat) {e : Nat} (he : e ≤ 2 ^ 11) :
    place (.ofModel (Float.Model.ofScientific m e)) = some (spot (m * 10 ^ e)) := by
  have hbound : (2 ^ Format.binary64.exponentBits : Int) = 2 ^ 11 := rfl
  unfold Float.Model.ofScientific UnpackedFloat.ofScientific
  rcases Nat.eq_zero_or_pos m with rfl | hm
  · rw [dif_pos rfl, Nat.cast_zero, zero_mul, spot_zero]
    exact place_pack_zero .positive
  · have hten : 0 < 10 ^ e := by positivity
    have hpos : 0 < m <<< 53 := by
      rw [Nat.shiftLeft_eq]
      positivity
    have hfull : 2 ^ 52 ≤ m <<< 53 := by
      rw [Nat.shiftLeft_eq]
      omega
    have hvalue : ((m <<< 53 : Nat) : ℚ) * (2 : ℚ) ^ (-53 : Int) * ((10 ^ e : Nat) * (2 : ℚ) ^ (0 : Int)) =
        m * 10 ^ e := by
      have hshift := shiftLeft_mul_zpow m (d := -53) (e := 0) (by decide)
      rw [zpow_zero, mul_one] at hshift ⊢
      push_cast
      congr 1
    rw [dif_neg hm.ne', hbound, if_neg (by omega), if_neg (by omega), if_pos (by omega), ← hvalue]
    exact place_mul_finite hpos hten (Or.inl hfull)

theorem place_model_down (m : Nat) {e : Nat} (hpos : 0 < e) (he : e ≤ 2 ^ 11) :
    place (.ofModel (Float.Model.ofScientific m (-e : Int))) = some (spot (m / 10 ^ e)) := by
  have hbound : (2 ^ Format.binary64.exponentBits : Int) = 2 ^ 11 := rfl
  unfold Float.Model.ofScientific UnpackedFloat.ofScientific
  rcases Nat.eq_zero_or_pos m with rfl | hm
  · rw [dif_pos rfl, Nat.cast_zero, zero_div, spot_zero]
    exact place_pack_zero .positive
  · have hten : 0 < 10 ^ e := by positivity
    have hvalue : (m : ℚ) * (2 : ℚ) ^ (0 : Int) / ((10 ^ e : Nat) * (2 : ℚ) ^ (0 : Int)) = m / 10 ^ e := by
      rw [zpow_zero, mul_one, mul_one]
      push_cast
      rfl
    have hamount : (-(-e : Int)).toNat = e := by omega
    rw [dif_neg hm.ne', hbound, if_neg (by omega), if_neg (by omega), if_neg (by omega), ← hvalue]
    simp only [hamount]
    exact place_div_finite 0 0 hm hten

theorem place_ofScientific (m : Nat) (negative : Bool) {e : Nat} (he : e ≤ 2 ^ 11) :
    place (Float.ofScientific m negative e) = some (spot (scientific m negative e)) := by
  unfold Float.ofScientific
  split
  · next h =>
    have hten := measures_powerOfTen (Nat.lt_succ_of_le h.2)
    have hdigits := measures_toFloat h.1
    unfold scientific
    cases negative with
    | true => exact hdigits.place_div hten (by positivity)
    | false => exact hdigits.place_mul hten
  · unfold scientific
    cases negative with
    | false => exact place_model_up m he
    | true =>
      rcases Nat.eq_zero_or_pos e with rfl | hpos
      · have hplace := place_model_up m (e := 0) he
        rw [pow_zero, mul_one] at hplace
        rw [if_pos rfl, if_pos rfl, pow_zero, div_one]
        exact hplace
      · have hnegative : Int.negOfNat e = -(e : Int) := by rw [Int.negOfNat_eq]; rfl
        simp only [if_true, hnegative]
        exact place_model_down m hpos he

/-! ## Rounding to places -/

theorem roundHalfEven_eq_nearest (num : Nat) {den : Nat} (hden : 0 < den) :
    (roundHalfEven num den : Int) = nearest ((num : ℚ) / den) := by
  have hpos : (0 : ℚ) < den := by exact_mod_cast hden
  have hfloor : ⌊(num : ℚ) / den⌋ = ((num / den : Nat) : Int) := Rat.floor_natCast_div_natCast num den
  have hrest : (num : ℚ) / den - ((num / den : Nat) : Int) = ((num % den : Nat) : ℚ) / den := by
    have hsum : (den : ℚ) * (num / den : Nat) + (num % den : Nat) = num := by exact_mod_cast Nat.div_add_mod num den
    rw [Int.cast_natCast, sub_eq_iff_eq_add, div_add' _ _ _ hpos.ne', div_left_inj' hpos.ne']
    linarith
  have hhalf : ((num % den : Nat) : ℚ) / den < 1 / 2 ↔ 2 * (num % den) < den := by
    rw [div_lt_div_iff₀ hpos two_pos, mul_comm, one_mul]
    exact_mod_cast Iff.rfl
  have hhalf' : 1 / 2 < ((num % den : Nat) : ℚ) / den ↔ den < 2 * (num % den) := by
    rw [div_lt_div_iff₀ two_pos hpos, mul_comm _ (2 : ℚ), one_mul]
    exact_mod_cast Iff.rfl
  unfold nearest roundHalfEven
  rw [hfloor, hrest]
  simp only [hhalf, hhalf']
  cases hcompare : compare (2 * (num % den)) den with
  | lt =>
    have hlt := Nat.compare_eq_lt.mp hcompare
    exact (if_pos hlt).symm
  | gt =>
    have hgt := Nat.compare_eq_gt.mp hcompare
    dsimp only
    split_ifs <;> omega
  | eq =>
    have heq := Nat.compare_eq_eq.mp hcompare
    dsimp only
    split_ifs <;> omega

theorem Measures.reading (h : Measures x q) :
    ∃ negative m e, Binary.ofFloat x = .finite negative m e ∧ q = m * (2 : ℚ) ^ e ∧ (negative = true → m = 0) := by
  rw [ofFloat_eq]
  rcases h.cases with ⟨s, hx, rfl⟩ | ⟨m, e, hm, hx, rfl⟩
  · refine ⟨isNegative s, 0, -1074, by rw [hx]; rfl, by simp, fun _ => rfl⟩
  · exact ⟨false, m, e, by rw [hx]; rfl, rfl, by simp⟩

end Double

end WalletRouting
