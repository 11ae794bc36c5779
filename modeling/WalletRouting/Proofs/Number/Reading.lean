import WalletRouting.Json.Reader
import WalletRouting.Proofs.Number.Nearness

/-! # Doubles that are read

Digits and a power of ten are read as the double that they are near. Far exponents are settled without the power, but no
number that is near a double has one so far.
-/
namespace WalletRouting
set_option autoImplicit false

namespace Double

open Float.Model (Format UnpackedFloat)
open Float.Model.UnpackedFloat
open Decimal (Near interval)

variable {x y : Double} {m : Nat} {e : Int} {v : ℚ} {negative : Bool}

/-! ## One double for each reading -/

theorem eq_of_toBits (h : x.toBits = y.toBits) : x = y := by
  obtain ⟨⟨a, ha⟩⟩ := x
  obtain ⟨⟨b, hb⟩⟩ := y
  obtain rfl : a = b := h
  rfl

theorem toBits_of_nan (h : Binary.ofFloat x = .nan) : x.toBits.toBitVec = packedNaN Format.binary64 := by
  have hspecial : x.toBits.toNat / Nat.pow 2 52 % 2048 = 2047 ∧ x.toBits.toNat % Nat.pow 2 52 ≠ 0 := by
    unfold Binary.ofFloat at h
    dsimp only at h
    split_ifs at h with hfull hzero
    exact ⟨hfull, hzero⟩
  apply x.toModel.valid.eq_packedNaN
  · exact BitVec.eq_of_toNat_eq ((toNat_unpackExponent x).trans hspecial.1)
  · intro hzero
    exact hspecial.2 ((toNat_unpackMantissa x).symm.trans (congrArg BitVec.toNat hzero))

theorem ofFloat_injective : Function.Injective Binary.ofFloat := by
  intro x y h
  apply eq_of_toBits
  by_cases hnan : Binary.ofFloat x = .nan
  · exact UInt64.toBitVec_inj.mp ((toBits_of_nan hnan).trans (toBits_of_nan (h ▸ hnan)).symm)
  apply UInt64.toNat_inj.mp
  have hbound (z : Double) : z.toBits.toNat < 2 ^ 64 := z.toBits.toBitVec.isLt
  have hx := hbound x
  have hy := hbound y
  have hpow : Nat.pow 2 52 = 2 ^ 52 := rfl
  have hpow' : Nat.pow 2 63 = 2 ^ 63 := rfl
  unfold Binary.ofFloat at h hnan
  simp only [hpow, hpow', Int.ofNat_eq_natCast] at h hnan
  generalize x.toBits.toNat = a at *
  generalize y.toBits.toNat = b at *
  -- The sign is the first bit, and the exponent and the digits tell the others.
  have hsign {p q : Prop} [Decidable p] [Decidable q] (hpq : decide p = decide q) : p ↔ q := decide_eq_decide.mp hpq
  split_ifs at h hnan <;> simp only [Binary.finite.injEq, Binary.infinite.injEq] at h
  · have := hsign h
    omega
  · exact absurd rfl hnan
  all_goals
    have := hsign h.1
    omega
theorem exponent_le_of_ofFloat (h : Binary.ofFloat x = .finite negative m e) : e ≤ 971 := by
  unfold Binary.ofFloat at h
  simp only [Int.ofNat_eq_natCast] at h
  split at h
  · split at h <;> cases h
  · split at h
    · cases h
      decide
    · cases h
      omega

theorem unpack_of_place (h : place x = some (1, e, (m : Int))) :
    ∃ hm : 0 < m, x.toModel.unpack = .finite .positive m e hm := by
  unfold place at h
  generalize x.toModel.unpack = a at *
  rcases a with (_ | _) | _ | _ | ⟨_ | _, n, f, hn⟩ <;> cases h
  exact ⟨hn, rfl⟩

theorem ofFloat_signed_of_place (h : place x = some (1, e, (m : Int))) (negative : Bool) :
    Binary.ofFloat (if negative then -x else x) = .finite negative m e := by
  obtain ⟨hm, hunpack⟩ := unpack_of_place h
  obtain ⟨hcanonical, hlargest⟩ := canonical_unpack hunpack
  cases negative with
  | false =>
    rw [if_neg Bool.false_ne_true, ofFloat_eq, hunpack]
    rfl
  | true =>
    have hneg : (-x).toModel.unpack = unpack Format.binary64 (pack Format.binary64 (.finite .negative m e hm)) := by
      change unpack Format.binary64 (pack Format.binary64 x.toModel.unpack.neg) = _
      rw [hunpack]
      rfl
    rw [if_pos rfl, ofFloat_eq, hneg, unpack_pack_finite hcanonical, if_neg (by omega)]
    rfl

/-! ## Far exponents -/

theorem zpow_log2_le {digits : Nat} (hpos : 0 < digits) {k : Int} (hk : 0 ≤ k) :
    (2 : ℚ) ^ (digits.log2 + k * 3) ≤ digits * (10 : ℚ) ^ k := by
  obtain ⟨k, rfl⟩ := Int.eq_ofNat_of_zero_le hk
  have hlog : (2 : ℚ) ^ digits.log2 ≤ digits := by exact_mod_cast Nat.log2_self_le hpos.ne'
  have hten : (2 : ℚ) ^ (k * 3) ≤ (10 : ℚ) ^ k := by
    rw [Nat.mul_comm, pow_mul]
    gcongr
    norm_num
  have hsplit : (2 : ℚ) ^ ((digits.log2 : Int) + k * 3) = (2 : ℚ) ^ digits.log2 * (2 : ℚ) ^ (k * 3) := by
    rw [← pow_add, ← zpow_natCast]
    push_cast
    rfl
  rw [hsplit, zpow_natCast]
  gcongr

theorem lt_zpow_log2 (digits : Nat) {k : Int} (hk : k ≤ 0) :
    digits * (10 : ℚ) ^ k < (2 : ℚ) ^ (digits.log2 + 1 + k * 3) := by
  obtain ⟨k, rfl⟩ := Int.eq_ofNat_of_zero_le (Int.neg_nonneg.mpr hk) |>.imp fun _ h => Int.neg_eq_comm.mp h
  have hlog : (digits : ℚ) < (2 : ℚ) ^ (digits.log2 + 1) := by exact_mod_cast Nat.lt_log2_self
  have hten : (2 : ℚ) ^ (k * 3) ≤ (10 : ℚ) ^ k := by
    rw [Nat.mul_comm, pow_mul]
    gcongr
    norm_num
  have hsplit : (2 : ℚ) ^ ((digits.log2 : Int) + 1 + -(k : Int) * 3) = (2 : ℚ) ^ (digits.log2 + 1) / (2 : ℚ) ^ (k * 3) := by
    rw [← zpow_natCast, ← zpow_natCast, ← zpow_sub₀ two_ne_zero]
    congr 1
    push_cast
    ring
  rw [hsplit, zpow_neg, zpow_natCast, ← div_eq_mul_inv]
  gcongr

theorem lt_of_near (h : Canonical m e) (he : e ≤ 971) (hnear : Near m e v) : v < (2 : ℚ) ^ (1100 : Int) := by
  have hdigits := h.digits
  have hhigh : (interval m e).high ≤ 2 ^ 56 := by
    simp only [interval]
    omega
  calc
    v ≤ (interval m e).high * (2 : ℚ) ^ (e - 2) := hnear.high
    _ ≤ (2 : ℚ) ^ (56 : Int) * (2 : ℚ) ^ (969 : Int) := by
      have hcast : ((interval m e).high : ℚ) ≤ (2 : ℚ) ^ (56 : Int) := by exact_mod_cast hhigh
      have hexponent : (2 : ℚ) ^ (e - 2) ≤ (2 : ℚ) ^ (969 : Int) := zpow_le_zpow_right₀ one_le_two (by omega)
      gcongr
    _ < (2 : ℚ) ^ (1100 : Int) := by
      rw [← zpow_add₀ two_ne_zero]
      exact zpow_lt_zpow_right₀ one_lt_two (by norm_num)

theorem le_of_near (h : Canonical m e) (hm : 0 < m) (hnear : Near m e v) : (2 : ℚ) ^ (-1199 : Int) ≤ v := by
  have hleast := h.least
  have hlow : 1 ≤ (interval m e).low := by
    simp only [interval]
    split <;> omega
  calc
    (2 : ℚ) ^ (-1199 : Int) ≤ 1 * (2 : ℚ) ^ (e - 2) := by
      rw [one_mul]
      exact zpow_le_zpow_right₀ one_le_two (by omega)
    _ ≤ (interval m e).low * (2 : ℚ) ^ (e - 2) := by
      have hcast : (1 : ℚ) ≤ (interval m e).low := by exact_mod_cast hlow
      gcongr
    _ ≤ v := hnear.low

/-! ## What is read -/

theorem place_of_near (h : Canonical m e) (he : e ≤ 971) (hm : 0 < m) (digits : Nat) (down : Bool) {k : Nat}
    (hk : k ≤ 2 ^ 11) (hnear : Near m e (scientific digits down k)) :
    place (Float.ofScientific digits down k) = some (1, e, (m : Int)) := by
  rw [place_ofScientific digits down hk, spot_of_near h hm hnear, if_neg (by omega)]

/-- Digits and a power of ten that are near a double are read as that double. -/
theorem decimalDouble_of_near (hx : Binary.ofFloat x = .finite negative m e) {digits : Nat} {k : Int}
    (hk : -2048 ≤ k)
    (hvalue : m = 0 ∧ digits * (10 : ℚ) ^ k = 0 ∨ 0 < m ∧ Near m e (digits * (10 : ℚ) ^ k)) :
    Json.decimalDouble negative digits k = x := by
  have hcanonical := Binary.canonical_ofFloat hx
  have hlargest := exponent_le_of_ofFloat hx
  apply ofFloat_injective
  rw [hx]
  unfold Json.decimalDouble
  rcases hvalue with ⟨rfl, hzero⟩ | ⟨hm, hnear⟩
  · have hdigits : digits = 0 := by
      rcases mul_eq_zero.mp hzero with hdigits | hpow
      · exact_mod_cast hdigits
      · exact absurd hpow (by positivity)
    obtain rfl : e = -1074 := hcanonical.full.resolve_left (by norm_num)
    rw [if_pos hdigits]
    cases negative <;> decide
  · have hdigits : digits ≠ 0 := by
      rintro rfl
      have := hnear.pos hm
      simp at this
    have hlow : ¬(k < 0 ∧ Int.ofNat digits.log2 + k * 3 < -1200) := by
      rintro ⟨hneg, hfar⟩
      have hbelow := lt_zpow_log2 digits hneg.le
      have hpower : (2 : ℚ) ^ ((digits.log2 : Int) + 1 + k * 3) ≤ (2 : ℚ) ^ (-1199 : Int) :=
        zpow_le_zpow_right₀ one_le_two (by simp only [Int.ofNat_eq_natCast] at hfar; omega)
      exact absurd (le_of_near hcanonical hm hnear) (not_le.mpr (hbelow.trans_le hpower))
    have hhigh : ¬(0 ≤ k ∧ 1100 < Int.ofNat digits.log2 + k * 3) := by
      rintro ⟨hnonneg, hfar⟩
      have habove := zpow_log2_le (Nat.pos_of_ne_zero hdigits) hnonneg
      have hpower : (2 : ℚ) ^ (1100 : Int) ≤ (2 : ℚ) ^ ((digits.log2 : Int) + k * 3) :=
        zpow_le_zpow_right₀ one_le_two (by simp only [Int.ofNat_eq_natCast] at hfar; omega)
      exact absurd (lt_of_near hcanonical hlargest hnear) (not_lt.mpr (hpower.trans habove))
    dsimp only
    rw [if_neg hdigits, if_neg hhigh, if_neg hlow]
    cases k with
    | ofNat k =>
      simp only [Int.ofNat_eq_natCast] at hhigh
      have hplace := place_of_near hcanonical hlargest hm digits false (show k ≤ 2 ^ 11 by omega)
        (by simpa [scientific] using hnear)
      exact ofFloat_signed_of_place hplace negative
    | negSucc k =>
      have hplace := place_of_near hcanonical hlargest hm digits true (show k + 1 ≤ 2 ^ 11 by omega)
        (by simpa [scientific, zpow_negSucc, div_eq_mul_inv] using hnear)
      exact ofFloat_signed_of_place hplace negative

end Double

end WalletRouting
