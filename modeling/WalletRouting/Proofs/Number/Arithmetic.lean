import WalletRouting.Number.Basic
import WalletRouting.Proofs.Number.Accuracy

/-! # Sums, products and quotients of doubles

Two doubles that are not negative are combined exactly and then rounded. What the exact results satisfy, the rounded ones
satisfy with `≤` for `<`.
-/
namespace WalletRouting
set_option autoImplicit false

namespace Double

open Float.Model (Format UnpackedFloat totalExponent)
open Float.Model.UnpackedFloat

def Counts : UnpackedFloat → ℚ → Prop
  | .zero _, q => q = 0
  | .finite .positive m e _, q => q = m * (2 : ℚ) ^ e
  | _, _ => False

/-- A double is this number, which is not negative. -/
def Measures (x : Double) (q : ℚ) : Prop := Counts x.toModel.unpack q

def Infinite (x : Double) : Prop := x.toModel.unpack = .infinity .positive

theorem represents_exact (m : Nat) : Represents (.ofMantissaAndAccuracy m .exact) m := by
  simp [Represents, ExtendedMantissa.ofMantissaAndAccuracy]

/-- The remainder of a division tells how much of the last digit is missing. -/
theorem represents_quotient (n : Nat) {d : Nat} (hd : 0 < d) :
    Represents (.ofMantissaAndAccuracy (n / d) (accuracyOfFraction (n % d) d)) ((n : ℚ) / d) := by
  have hpos : (0 : ℚ) < d := by exact_mod_cast hd
  have hsum : (d : ℚ) * (n / d : Nat) + (n % d : Nat) = n := by exact_mod_cast Nat.div_add_mod n d
  have hquotient : (n : ℚ) / d = (n / d : Nat) + (n % d : Nat) / (d : ℚ) := by
    rw [div_eq_iff hpos.ne', add_mul, div_mul_cancel₀ _ hpos.ne']
    linarith
  have hlt : ((n % d : Nat) : ℚ) < d := by exact_mod_cast Nat.mod_lt n hd
  rw [hquotient]
  generalize n / d = q
  generalize n % d = r at hlt
  have hnonneg : (0 : ℚ) ≤ r := by positivity
  unfold accuracyOfFraction
  split_ifs with hzero
  · simp [Represents, ExtendedMantissa.ofMantissaAndAccuracy, hzero]
  have hr : (0 : ℚ) < r := by exact_mod_cast Nat.pos_of_ne_zero hzero
  cases hcompare : compare (2 * r) d with
  | lt =>
    have hhalf : 2 * (r : ℚ) < d := by exact_mod_cast Nat.compare_eq_lt.mp hcompare
    have hfraction : 0 < (r : ℚ) / d ∧ 2 * ((r : ℚ) / d) < 1 :=
      ⟨div_pos hr hpos, by rw [← mul_div_assoc, div_lt_one hpos]; exact hhalf⟩
    simp only [Represents, ExtendedMantissa.ofMantissaAndAccuracy, if_true, Bool.toNat_false, Nat.cast_zero]
    constructor <;> linarith
  | eq =>
    have hhalf : 2 * (r : ℚ) = d := by exact_mod_cast Nat.compare_eq_eq.mp hcompare
    have hfraction : 2 * ((r : ℚ) / d) = 1 := by rw [← mul_div_assoc, hhalf, div_self hpos.ne']
    simp only [Represents, ExtendedMantissa.ofMantissaAndAccuracy, if_false, Bool.false_eq_true, Bool.toNat_true,
      Nat.cast_one]
    linarith
  | gt =>
    have hhalf : (d : ℚ) < 2 * r := by exact_mod_cast Nat.compare_eq_gt.mp hcompare
    have hfraction : 1 < 2 * ((r : ℚ) / d) ∧ (r : ℚ) / d < 1 :=
      ⟨by rw [← mul_div_assoc, one_lt_div hpos]; exact hhalf, (div_lt_one hpos).mpr hlt⟩
    simp only [Represents, ExtendedMantissa.ofMantissaAndAccuracy, if_true, Bool.toNat_true, Nat.cast_one]
    constructor <;> linarith

theorem log2_add_le_log2_shiftLeft {m : Nat} (hm : 0 < m) (k : Nat) : m.log2 + k ≤ (m <<< k).log2 := by
  rw [Nat.shiftLeft_eq]
  apply (Nat.le_log2 (Nat.mul_pos hm (Nat.two_pow_pos k)).ne').mpr
  rw [pow_add]
  exact Nat.mul_le_mul_right _ (Nat.log2_self_le hm.ne')

theorem shiftLeft_mul_zpow (m : Nat) {d e : Int} (h : d ≤ e) :
    ((m <<< (e - d).toNat : Nat) : ℚ) * (2 : ℚ) ^ d = m * (2 : ℚ) ^ e := by
  rw [Nat.shiftLeft_eq, Nat.cast_mul, Nat.cast_pow, mul_assoc, Nat.cast_two, ← zpow_natCast, ← zpow_add₀ two_ne_zero]
  congr 2
  omega

theorem place_round {m : Nat} (hm : 0 < m) (e : Int) :
    place (.ofModel (.pack (UnpackedFloat.round Format.binary64 .positive m e))) =
      some (spot (m * (2 : ℚ) ^ e)) := by
  unfold UnpackedFloat.round decreaseExponent
  dsimp only
  rw [targetExponent_eq]
  generalize ht : max ((m.log2 : Int) + e - 52) (-1074) = t
  have hlog := log2_add_le_log2_shiftLeft hm (e - t).toNat
  have hexponent : e - ((e - t).toNat : Int) = min e t := by omega
  have hshift : (e - t).toNat = (e - min e t).toNat := by omega
  rw [hexponent, place_roundWithAccuracy (represents_exact (m <<< (e - t).toNat)), hshift,
    shiftLeft_mul_zpow m (min_le_left e t)]
  · rw [Nat.shiftLeft_eq]
    positivity
  · rw [targetExponent_eq]
    omega

theorem place_normalize (n : Nat) (e : Int) :
    place (.ofModel (.pack (UnpackedFloat.normalize Format.binary64 n e .positive))) = some (spot (n * (2 : ℚ) ^ e)) := by
  unfold UnpackedFloat.normalize
  rcases Nat.eq_zero_or_pos n with rfl | hn
  · have hzero : ((0 : Nat) : ℚ) * (2 : ℚ) ^ e = 0 := by rw [Nat.cast_zero, zero_mul]
    rw [hzero, spot_zero]
    exact place_pack_zero .positive
  · have hcompare : compare (n : Int) 0 = .gt := by
      rw [Int.compare_eq_gt]
      omega
    rw [hcompare]
    exact place_round hn e

/-- No room is needed for the digits of a product, unless both factors have the least exponent. -/
theorem place_mul_finite {m n : Nat} {d e : Int} (hm : 0 < m) (hn : 0 < n)
    (hroom : 2 ^ 52 ≤ m ∨ 2 ^ 52 ≤ n ∨ d + e ≤ -1074) :
    place (.ofModel (.pack
        (mul Format.binary64 (.finite .positive m d hm) (.finite .positive n e hn)))) =
      some (spot (m * (2 : ℚ) ^ d * (n * (2 : ℚ) ^ e))) := by
  have hpos := Nat.mul_pos hm hn
  have hvalue : ((m * n : Nat) : ℚ) * (2 : ℚ) ^ (d + e) = m * (2 : ℚ) ^ d * (n * (2 : ℚ) ^ e) := by
    rw [zpow_add₀ two_ne_zero]
    push_cast
    ring
  rw [← hvalue]
  apply place_roundWithAccuracy (represents_exact (m * n))
  · exact_mod_cast hpos
  · rw [targetExponent_eq]
    have hlog : 2 ^ 52 ≤ m * n → 52 ≤ (m * n).log2 := (Nat.le_log2 hpos.ne').mpr
    rcases hroom with h | h | h
    · have := hlog (h.trans (Nat.le_mul_of_pos_right m hn))
      omega
    · have := hlog (h.trans (Nat.le_mul_of_pos_left n hm))
      omega
    · omega

theorem place_div_finite {m n : Nat} (d e : Int) (hm : 0 < m) (hn : 0 < n) :
    place (.ofModel (.pack
        (div Format.binary64 (.finite .positive m d hm) (.finite .positive n e hn)))) =
      some (spot (m * (2 : ℚ) ^ d / (n * (2 : ℚ) ^ e))) := by
  have hbits : (Format.binary64.mantissaBits : Int) = 53 := rfl
  have hleast : Format.binary64.minExponent = -1074 := rfl
  unfold div divCore Format.targetExponent totalExponent
  dsimp only
  rw [hbits, hleast]
  generalize ht : min (d - e) (max ((m.log2 : Int) + 1 + d - ((n.log2 : Int) + 1 + e) - 53) (-1074)) = t
  generalize hk : (d - e - t).toNat = k
  have hpos : 0 < m <<< k := by
    rw [Nat.shiftLeft_eq]
    positivity
  have hvalue : ((m <<< k : Nat) : ℚ) / n * (2 : ℚ) ^ t = m * (2 : ℚ) ^ d / (n * (2 : ℚ) ^ e) := by
    have hshift := shiftLeft_mul_zpow m (show t ≤ d - e by omega)
    rw [hk, zpow_sub₀ two_ne_zero] at hshift
    rw [div_mul_eq_mul_div, hshift]
    ring
  -- Above the least exponent, enough digits are moved up that the quotient has all of its own.
  have hfull : -1074 < t → 52 ≤ (m <<< k / n).log2 := by
    intro habove
    have hlog := log2_add_le_log2_shiftLeft hm k
    have hroom : n.log2 + 1 + 52 ≤ (m <<< k).log2 := by omega
    have hlow : 2 ^ (n.log2 + 1 + 52) ≤ m <<< k := (Nat.le_log2 hpos.ne').mp hroom
    have hquotient : 2 ^ 52 ≤ m <<< k / n := by
      rw [Nat.le_div_iff_mul_le hn]
      calc 2 ^ 52 * n ≤ 2 ^ 52 * 2 ^ (n.log2 + 1) := Nat.mul_le_mul_left _ Nat.lt_log2_self.le
        _ = 2 ^ (n.log2 + 1 + 52) := by rw [← pow_add, Nat.add_comm]
        _ ≤ m <<< k := hlow
    exact (Nat.le_log2 (by positivity)).mpr hquotient
  have hdiv : (Sign.positive / Sign.positive : Sign) = .positive := rfl
  rw [← hvalue, hdiv]
  apply place_roundWithAccuracy (represents_quotient (m <<< k) hn)
  · positivity
  · rw [targetExponent_eq]
    omega

theorem add_eq_pack (x y : Double) :
    x + y = .ofModel (.pack (add Format.binary64 x.toModel.unpack y.toModel.unpack)) := rfl

theorem mul_eq_pack (x y : Double) :
    x * y = .ofModel (.pack (mul Format.binary64 x.toModel.unpack y.toModel.unpack)) := rfl

theorem div_eq_pack (x y : Double) :
    x / y = .ofModel (.pack (div Format.binary64 x.toModel.unpack y.toModel.unpack)) := rfl

namespace Measures

variable {x y : Double} {p q : ℚ}

theorem cases (h : Measures x q) :
    (∃ s, x.toModel.unpack = .zero s ∧ q = 0) ∨
      ∃ m e, ∃ hm : 0 < m, x.toModel.unpack = .finite .positive m e hm ∧ q = m * (2 : ℚ) ^ e := by
  unfold Measures Counts at h
  split at h
  · next s hzero => exact Or.inl ⟨s, hzero, h⟩
  · next m e hm hfinite => exact Or.inr ⟨m, e, hm, hfinite, h⟩
  · exact h.elim

theorem nonneg (h : Measures x q) : 0 ≤ q := by
  rcases h.cases with ⟨_, _, rfl⟩ | ⟨m, e, _, _, rfl⟩
  · exact le_rfl
  · positivity

theorem place (h : Measures x q) : place x = some (spot q) := by
  rcases h.cases with ⟨s, hx, rfl⟩ | ⟨m, e, hm, hx, rfl⟩
  · unfold Double.place
    rw [hx, spot_zero]
    rfl
  · obtain ⟨hcanonical, hlargest⟩ := canonical_unpack hx
    unfold Double.place
    rw [hx, hcanonical.spot hm, if_neg (by omega)]
    rfl

theorem place_add (hp : Measures x p) (hq : Measures y q) : Double.place (x + y) = some (spot (p + q)) := by
  rw [add_eq_pack]
  rcases hp.cases with ⟨s, hx, rfl⟩ | ⟨m, d, hm, hx, rfl⟩
  · rcases hq.cases with ⟨s', hy, rfl⟩ | ⟨n, e, hn, hy, rfl⟩
    · rw [hx, hy, add_zero, spot_zero]
      cases s <;> cases s' <;> exact place_pack_zero _
    · obtain ⟨hcanonical, -⟩ := canonical_unpack hy
      rw [hx, hy, zero_add, hcanonical.spot hn]
      exact place_pack_finite hcanonical hn
  · rcases hq.cases with ⟨s', hy, rfl⟩ | ⟨n, e, hn, hy, rfl⟩
    · obtain ⟨hcanonical, -⟩ := canonical_unpack hx
      rw [hx, hy, add_zero, hcanonical.spot hm]
      exact place_pack_finite hcanonical hm
    · rw [hx, hy, ← shiftLeft_mul_zpow m (min_le_left d e), ← shiftLeft_mul_zpow n (min_le_right d e), ← add_mul,
        ← Nat.cast_add]
      exact place_normalize _ _

theorem place_mul (hp : Measures x p) (hq : Measures y q) : Double.place (x * y) = some (spot (p * q)) := by
  rw [mul_eq_pack]
  rcases hp.cases with ⟨s, hx, rfl⟩ | ⟨m, d, hm, hx, rfl⟩
  · rw [hx, zero_mul, spot_zero]
    rcases hq.cases with ⟨s', hy, -⟩ | ⟨n, e, hn, hy, -⟩
    · rw [hy]
      exact place_pack_zero _
    · rw [hy]
      exact place_pack_zero _
  · rcases hq.cases with ⟨s', hy, rfl⟩ | ⟨n, e, hn, hy, rfl⟩
    · rw [hx, hy, mul_zero, spot_zero]
      exact place_pack_zero _
    · rw [hx, hy]
      have hfull := (canonical_unpack hx).1.full
      have hfull' := (canonical_unpack hy).1.full
      exact place_mul_finite hm hn (by omega)

theorem place_div (hp : Measures x p) (hq : Measures y q) (hpos : 0 < q) :
    Double.place (x / y) = some (spot (p / q)) := by
  rw [div_eq_pack]
  rcases hq.cases with ⟨s', -, rfl⟩ | ⟨n, e, hn, hy, rfl⟩
  · exact absurd hpos (lt_irrefl 0)
  · rcases hp.cases with ⟨s, hx, rfl⟩ | ⟨m, d, hm, hx, rfl⟩
    · rw [hx, hy, zero_div, spot_zero]
      exact place_pack_zero _
    · rw [hx, hy]
      exact place_div_finite d e hm hn

end Measures

end Double

end WalletRouting
