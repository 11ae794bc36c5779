import WalletRouting.Proofs.Number.Packing

/-! # Digits that are kept, and what is said of the rest

Rounding drops digits one at a time and remembers of them whether the last was set and whether any before it was. That
is enough to know on which side of the half the dropped part is, so what is rounded to is the nearest double.
-/
namespace WalletRouting
set_option autoImplicit false

namespace Double

open Float.Model (Format UnpackedFloat totalExponent)
open Float.Model.UnpackedFloat

/-- What the digits and the two bits say of a number: twice the number, up to what is below the last bit. -/
def Represents (em : ExtendedMantissa) (v : ℚ) : Prop :=
  if em.stickyBit then
    2 * (em.mantissa : ℚ) + em.roundBit.toNat < 2 * v ∧ 2 * v < 2 * (em.mantissa : ℚ) + em.roundBit.toNat + 1
  else 2 * v = 2 * (em.mantissa : ℚ) + em.roundBit.toNat

namespace Represents

variable {em : ExtendedMantissa} {v : ℚ}

theorem le (h : Represents em v) : em.mantissa ≤ v := by
  obtain ⟨m, r, s⟩ := em
  have hr : (0 : ℚ) ≤ r.toNat := by positivity
  unfold Represents at h
  split_ifs at h <;> dsimp only at h ⊢ <;> linarith

theorem lt (h : Represents em v) : v < em.mantissa + 1 := by
  obtain ⟨m, r, s⟩ := em
  have hr : (r.toNat : ℚ) ≤ 1 := by exact_mod_cast Bool.toNat_le r
  unfold Represents at h
  split_ifs at h <;> dsimp only at h ⊢ <;> linarith

theorem roundedMantissa (h : Represents em v) : (em.roundedMantissa : Int) = nearest v := by
  have hfloor : ⌊v⌋ = em.mantissa := Int.floor_eq_iff.mpr ⟨by exact_mod_cast h.le, by exact_mod_cast h.lt⟩
  unfold nearest
  rw [hfloor]
  obtain ⟨m, r, s⟩ := em
  cases r <;> cases s <;> simp only [Represents, Bool.toNat_false, Bool.toNat_true, if_true, if_false,
    Bool.false_eq_true, Nat.cast_zero, Nat.cast_one, add_zero] at h
  case false.false =>
    rw [if_pos (by push_cast; linarith)]
    rfl
  case false.true =>
    rw [if_pos (by push_cast; linarith)]
    rfl
  case true.false =>
    rw [if_neg (by push_cast; linarith), if_neg (by push_cast; linarith)]
    rfl
  case true.true =>
    rw [if_neg (by push_cast; linarith), if_pos (by push_cast; linarith)]
    rfl

theorem shiftRightOne (h : Represents em v) : Represents em.shiftRightOne (v / 2) := by
  obtain ⟨m, r, s⟩ := em
  have hbit : (m % 2 != 0).toNat = m % 2 := by
    rcases Nat.mod_two_eq_zero_or_one m with h | h <;> rw [h] <;> rfl
  have hm : 2 * ((m / 2 : Nat) : ℚ) + ((m % 2 != 0).toNat : ℚ) = m := by
    rw [hbit]
    exact_mod_cast Nat.div_add_mod m 2
  cases r <;> cases s <;> simp only [Represents, ExtendedMantissa.shiftRightOne, Bool.toNat_false, Bool.toNat_true,
    if_true, if_false, Bool.false_eq_true, Bool.or_false, Bool.or_true, Nat.cast_zero, Nat.cast_one, add_zero] at h ⊢
  case false.false => linarith
  all_goals constructor <;> linarith

theorem shiftRight (h : Represents em v) (k : Nat) : Represents (em >>> k) (v / 2 ^ k) := by
  change Represents (k.repeat ExtendedMantissa.shiftRightOne em) _
  induction k with
  | zero =>
    rw [pow_zero, div_one]
    exact h
  | succ k ih =>
    rw [pow_succ, ← div_div]
    exact ih.shiftRightOne

end Represents

theorem targetExponent_eq (m : Nat) (e : Int) :
    Format.binary64.targetExponent (totalExponent m e) = max (m.log2 + e - 52) (-1074) := by
  have hbits : (Format.binary64.mantissaBits : Int) = 53 := rfl
  have hleast : Format.binary64.minExponent = -1074 := rfl
  unfold Format.targetExponent totalExponent
  rw [hbits, hleast]
  omega

theorem mantissa_ofMantissaAndAccuracy (m : Nat) (acc : Accuracy) :
    (ExtendedMantissa.ofMantissaAndAccuracy m acc).mantissa = m := by
  rcases acc with _ | (_ | _ | _) <;> rfl

variable {m : Nat} {e : Int} {acc : Accuracy} {v : ℚ}

theorem exponentOf_eq (h : Represents (.ofMantissaAndAccuracy m acc) v) (hv : 0 < v)
    (hroom : e ≤ Format.binary64.targetExponent (totalExponent m e)) :
    exponentOf (v * (2 : ℚ) ^ e) = Format.binary64.targetExponent (totalExponent m e) := by
  have hle := h.le
  have hlt := h.lt
  rw [mantissa_ofMantissaAndAccuracy] at hle hlt
  rw [targetExponent_eq] at hroom ⊢
  unfold exponentOf
  rcases Nat.eq_zero_or_pos m with rfl | hm
  · -- No digit is left, so the number is below the least exponent.
    have hlog : Int.log 2 (v * (2 : ℚ) ^ e) < e := by
      apply (Int.lt_zpow_iff_log_lt one_lt_two (by positivity)).mp
      rw [Nat.cast_zero, zero_add] at hlt
      exact mul_lt_of_lt_one_left (by positivity) hlt
    rw [Nat.log2_zero] at hroom ⊢
    omega
  · rw [log_mul_zpow hm hle hlt e]

theorem roundedMantissa_eq (h : Represents (.ofMantissaAndAccuracy m acc) v) (hv : 0 < v)
    (hroom : e ≤ Format.binary64.targetExponent (totalExponent m e)) :
    ((shiftToTargetExponent Format.binary64 m e acc).1.roundedMantissa : Int) = digitsOf (v * (2 : ℚ) ^ e) ∧
      (shiftToTargetExponent Format.binary64 m e acc).2 = exponentOf (v * (2 : ℚ) ^ e) := by
  have hexponent := exponentOf_eq h hv hroom
  unfold shiftToTargetExponent shiftToExponent
  dsimp only
  rw [← hexponent] at hroom ⊢
  obtain ⟨k, hk⟩ := Int.le.dest hroom
  have hshift : (exponentOf (v * (2 : ℚ) ^ e) - e).toNat = k := by omega
  rw [hshift]
  refine ⟨?_, hk⟩
  rw [(h.shiftRight k).roundedMantissa]
  unfold digitsOf
  congr 1
  rw [← hk, zpow_add₀ two_ne_zero, zpow_natCast, mul_comm v, mul_div_mul_left _ _ (by positivity)]

/-- Digits within bounds are left alone when they are fitted to an exponent once more, except for a carry. -/
theorem shiftToTargetExponent_exact {n : Nat} (hn : n ≤ 2 ^ 53) (he : -1074 ≤ e) :
    shiftToTargetExponent Format.binary64 n e .exact =
      if n = 2 ^ 53 then (⟨2 ^ 52, false, false⟩, e + 1) else (⟨n, false, false⟩, e) := by
  unfold shiftToTargetExponent shiftToExponent
  dsimp only
  rw [targetExponent_eq]
  split_ifs with hcarry
  · subst hcarry
    have hlog : (2 ^ 53 : Nat).log2 = 53 := Nat.log2_two_pow
    rw [hlog]
    have hshift : (max (((53 : Nat) : Int) + e - 52) (-1074) - e).toNat = 1 := by omega
    rw [hshift]
    rfl
  · have hlog : n.log2 ≤ 52 := by
      rcases Nat.eq_zero_or_pos n with rfl | hpos
      · decide
      · have := (Nat.log2_lt hpos.ne').mpr (show n < 2 ^ 53 by omega)
        omega
    have hshift : (max ((n.log2 : Int) + e - 52) (-1074) - e).toNat = 0 := by omega
    rw [hshift]
    exact Prod.ext rfl (add_zero e)

theorem place_pack_digits {n : Nat} {e : Int} (hn : n < 2 ^ 53) (he : -1074 ≤ e) (hfull : -1074 < e → 2 ^ 52 ≤ n) :
    place (.ofModel (.pack
        (if h : n = 0 then .zero .positive else .finite .positive n e (Nat.pos_of_ne_zero h)))) =
      some (spotAt e n) := by
  have hcarry : (n : Int) ≠ 2 ^ 53 := by omega
  unfold spotAt
  by_cases hzero : n = 0
  · subst hzero
    exact place_pack_zero .positive
  · have hcanonical : Canonical n e := ⟨hn, he, by omega⟩
    rw [dif_neg hzero, place_pack_finite hcanonical, if_neg (Nat.cast_ne_zero.mpr hzero), if_neg hcarry]

theorem place_roundWithAccuracy (h : Represents (.ofMantissaAndAccuracy m acc) v) (hv : 0 < v)
    (hroom : e ≤ Format.binary64.targetExponent (totalExponent m e)) :
    place (.ofModel (.pack (roundWithAccuracy Format.binary64 .positive m e acc))) =
      some (spot (v * (2 : ℚ) ^ e)) := by
  have hq : 0 < v * (2 : ℚ) ^ e := by positivity
  obtain ⟨hdigits, hexponent⟩ := roundedMantissa_eq h hv hroom
  have hle := digitsOf_le (v * (2 : ℚ) ^ e)
  have hleast : -1074 ≤ exponentOf (v * (2 : ℚ) ^ e) := le_max_right _ _
  have hfull := le_digitsOf hq
  unfold roundWithAccuracy spot
  dsimp only
  rw [hexponent]
  generalize (shiftToTargetExponent Format.binary64 m e acc).1.roundedMantissa = n at hdigits
  generalize exponentOf (v * (2 : ℚ) ^ e) = e' at hleast hfull
  rw [← hdigits] at hle hfull ⊢
  rw [shiftToTargetExponent_exact (by omega) hleast]
  by_cases hcarry : n = 2 ^ 53
  · have hspot : spotAt e' (2 ^ 53 : Nat) = spotAt (e' + 1) (2 ^ 52 : Nat) := rfl
    rw [hcarry, hspot, if_pos rfl]
    exact place_pack_digits (n := 2 ^ 52) (by decide) (by omega) fun _ => le_rfl
  · rw [if_neg hcarry]
    exact place_pack_digits (n := n) (by omega) hleast (by omega)

end Double

end WalletRouting
