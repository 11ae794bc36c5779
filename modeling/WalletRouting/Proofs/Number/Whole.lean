import WalletRouting.Proofs.Number.Estimate

/-! # Whole numbers and floors

A natural number below `2 ^ 53` is a double, and a larger one is rounded to one. The floor of a double is that of the
number it measures.
-/
namespace WalletRouting
set_option autoImplicit false

namespace Double

open Float.Model (Format UnpackedFloat)
open Float.Model.UnpackedFloat

variable {x y : Double} {p q : ℚ}

theorem exists_canonical {n : Nat} {d : Int} (hn : 0 < n) (hlt : n < 2 ^ 53) (hlow : -1022 ≤ d) (hhigh : d ≤ 971) :
    ∃ m e, Canonical m e ∧ 0 < m ∧ e ≤ 971 ∧ (n : ℚ) * (2 : ℚ) ^ d = m * (2 : ℚ) ^ e := by
  have hlog : n.log2 < 53 := (Nat.log2_lt hn.ne').mpr hlt
  have hshift := log2_add_le_log2_shiftLeft hn (52 - n.log2)
  have hvalue := shiftLeft_mul_zpow n (d := (n.log2 : Int) - 52 + d) (e := d) (by omega)
  have hamount : (d - ((n.log2 : Int) - 52 + d)).toNat = 52 - n.log2 := by omega
  rw [hamount] at hvalue
  have hpos : 0 < n <<< (52 - n.log2) := by
    rw [Nat.shiftLeft_eq]
    positivity
  refine ⟨n <<< (52 - n.log2), (n.log2 : Int) - 52 + d, ⟨?_, by omega, Or.inl ?_⟩, hpos, by omega, hvalue.symm⟩
  · have hpow : 2 ^ 53 = 2 ^ (n.log2 + 1) * 2 ^ (52 - n.log2) := by
      rw [← pow_add]
      congr 1
      omega
    rw [Nat.shiftLeft_eq, hpow]
    exact Nat.mul_lt_mul_of_pos_right Nat.lt_log2_self (Nat.two_pow_pos _)
  · exact (Nat.le_log2 hpos.ne').mp (by omega)

theorem measures_of_place {m : Nat} {e : Int} (h : place x = some (1, e, (m : Int))) :
    Measures x (m * (2 : ℚ) ^ e) := by
  unfold Measures
  unfold place at h
  rcases hx : x.toModel.unpack with (_ | _) | _ | s | ⟨_ | _, n, d, hn⟩ <;> rw [hx] at h <;> cases h
  rfl

theorem Canonical.measures {m : Nat} {e : Int} (h : Canonical m e) (hm : 0 < m) (he : e ≤ 971)
    (hplace : place x = some (Double.spot (m * (2 : ℚ) ^ e))) : Measures x (m * (2 : ℚ) ^ e) := by
  rw [h.spot hm, if_neg (by omega)] at hplace
  exact measures_of_place hplace

theorem measures_of_spot_zpow {n : Nat} {d : Int} (hlt : n < 2 ^ 53) (hlow : -1022 ≤ d) (hhigh : d ≤ 971)
    (h : place x = some (spot (n * (2 : ℚ) ^ d))) : Measures x (n * (2 : ℚ) ^ d) := by
  rcases Nat.eq_zero_or_pos n with rfl | hn
  · rw [Nat.cast_zero, zero_mul] at h ⊢
    rw [spot_zero] at h
    unfold Measures
    unfold place at h
    rcases hx : x.toModel.unpack with (_ | _) | _ | s | ⟨_ | _, n, d, hn⟩ <;> rw [hx] at h <;> cases h
    rfl
  · obtain ⟨m, e, hcanonical, hm, he, hvalue⟩ := exists_canonical hn hlt hlow hhigh
    rw [hvalue] at h ⊢
    exact hcanonical.measures hm he h

theorem measures_of_spot {n : Nat} (hlt : n < 2 ^ 53) (h : place x = some (spot n)) : Measures x n := by
  have hvalue : (n : ℚ) = n * (2 : ℚ) ^ (0 : Int) := by rw [zpow_zero, mul_one]
  rw [hvalue] at h ⊢
  exact measures_of_spot_zpow hlt (by decide) (by decide) h

theorem place_ofNat_of_lt {n : Nat} (hlt : n < 2 ^ 53) : place (Float.ofNat n) = some (spot n) := by
  have hscientific : Float.ofNat n = Float.ofScientific n false 0 := rfl
  have hsize : UInt64.size = 2 ^ 64 := rfl
  have hn : n.toUInt64.toNat = n := UInt64.toNat_ofNat_of_lt' (by omega)
  have hplace : place n.toUInt64.toFloat = some (spot n) := by
    have hnormalize := place_normalize n.toUInt64.toNat 0
    rw [zpow_zero, mul_one] at hnormalize
    have hcast : (n.toUInt64.toNat : ℚ) = n := by rw [hn]
    rw [← hcast]
    exact hnormalize
  have hmul := (measures_of_spot hlt hplace).place_mul measures_one
  rw [mul_one] at hmul
  rw [hscientific]
  unfold Float.ofScientific
  rw [dif_pos ⟨hlt, by decide⟩]
  exact hmul

theorem place_ofNat (n : Nat) : place (Float.ofNat n) = some (spot n) := by
  by_cases hlt : n < 2 ^ 53
  · exact place_ofNat_of_lt hlt
  have hscientific : Float.ofNat n = Float.ofScientific n false 0 := rfl
  have hpos : 0 < n <<< 53 := by
    rw [Nat.shiftLeft_eq]
    exact Nat.mul_pos (by omega) (Nat.two_pow_pos _)
  have hmodel : Float.Model.ofScientific n 0 =
      .pack (mul Format.binary64 (.finite .positive (n <<< 53) (-53) hpos) (.finite .positive 1 0 Nat.one_pos)) := by
    have hlow : ¬(0 : Int) < -((2 ^ Format.binary64.exponentBits : Int) + n.log2) := by
      have hbound : (2 ^ Format.binary64.exponentBits : Int) = 2048 := rfl
      omega
    unfold Float.Model.ofScientific UnpackedFloat.ofScientific
    rw [dif_neg (by omega), if_neg (by decide), if_neg hlow, if_pos le_rfl]
    rfl
  have hvalue : ((n <<< 53 : Nat) : ℚ) * (2 : ℚ) ^ (-53 : Int) * ((1 : Nat) * (2 : ℚ) ^ (0 : Int)) = n := by
    have hshift := shiftLeft_mul_zpow n (d := -53) (e := 0) (by decide)
    rw [zpow_zero, mul_one] at hshift ⊢
    rw [Nat.cast_one, mul_one]
    exact hshift
  rw [hscientific]
  unfold Float.ofScientific
  rw [dif_neg (by omega)]
  change place (.ofModel (Float.Model.ofScientific n 0)) = _
  rw [hmodel, place_mul_finite hpos Nat.one_pos (Or.inl ?_), hvalue]
  rw [Nat.shiftLeft_eq]
  omega

theorem measures_ofNat {n : Nat} (h : n < 2 ^ 53) : Measures (Float.ofNat n) n := measures_of_spot h (place_ofNat n)

theorem zero_le_ofNat (n : Nat) : 0 ≤ Float.ofNat n := zero_le_of_spot (place_ofNat n) (Nat.cast_nonneg n)

/-! ## Floors -/

theorem ratio_eq (m : Nat) (e : Int) :
    ((Binary.ratio m e).1 : ℚ) / (Binary.ratio m e).2 = m * (2 : ℚ) ^ e := by
  cases e with
  | ofNat k => simp [Binary.ratio]
  | negSucc k => simp [Binary.ratio, zpow_negSucc, div_eq_mul_inv]

theorem floor?_finite (m : Nat) (e : Int) : (Binary.finite false m e).floor? = some ⌊(m : ℚ) * (2 : ℚ) ^ e⌋ := by
  rw [← ratio_eq, Rat.floor_natCast_div_natCast]
  rfl

theorem floor?_zero (s : Bool) (e : Int) : (Binary.finite s 0 e).floor? = some 0 := by
  have hnum : (Binary.ratio 0 e).1 = 0 := by
    cases e with
    | ofNat k => exact Nat.zero_mul _
    | negSucc k => rfl
  unfold Binary.floor?
  dsimp only
  rw [hnum]
  cases s <;> exact congrArg some (Int.zero_ediv _)

theorem Measures.floor? (h : Measures x q) : Double.floor? x = some ⌊q⌋ := by
  unfold Double.floor?
  rw [ofFloat_eq]
  rcases h.cases with ⟨s, hx, rfl⟩ | ⟨m, e, hm, hx, rfl⟩
  · rw [hx, Int.floor_zero]
    exact floor?_zero _ _
  · rw [hx]
    exact floor?_finite m e

theorem Infinite.floor? (h : Infinite x) : Double.floor? x = none := by
  unfold Double.floor?
  rw [ofFloat_eq, h]
  rfl

theorem le_of_floor? {n : Nat} {k : Int} (hn : n < 2 ^ 53) (hle : Float.ofNat n ≤ x)
    (hfloor : Double.floor? x = some k) : (n : Int) ≤ k := by
  have hmeasures := measures_ofNat hn
  rcases infinite_or_measures (le_trans hmeasures.zero_le hle) with hx | ⟨q, hq⟩
  · cases hx.floor?.symm.trans hfloor
  · have hnq : (n : ℚ) ≤ q := (hmeasures.le_iff hq).mp hle
    cases hq.floor?.symm.trans hfloor
    exact Int.le_floor.mpr (by exact_mod_cast hnq)

/-! ## Finite doubles -/

theorem Measures.finite (h : Measures x q) : Double.finite x = true := by
  unfold Double.finite
  rw [ofFloat_eq]
  rcases h.cases with ⟨s, hx, -⟩ | ⟨m, e, hm, hx, -⟩ <;> rw [hx] <;> rfl

theorem Infinite.not_finite (h : Infinite x) : Double.finite x = false := by
  unfold Double.finite
  rw [ofFloat_eq, h]
  rfl

theorem measures_of_finite (hx : 0 ≤ x) (h : Double.finite x = true) : ∃ q, Measures x q :=
  (infinite_or_measures hx).resolve_left fun hinfinite => by
    rw [hinfinite.not_finite] at h
    cases h

end Double

end WalletRouting
