import Mathlib.Algebra.Order.Field.Power
import Mathlib.Data.Int.Log
import Mathlib.Data.Rat.Floor
import Mathlib.Tactic.Linarith
import Mathlib.Tactic.Positivity
import WalletRouting.Proofs.Number.Order

/-! # Rounding to a double

A rational has 53 significant binary digits left, fewer where doubles are sparse near zero; an exact half goes to the
even neighbour. What is left is told as the place it has in the order of doubles, so rounding is monotone without a
word about values.
-/
namespace WalletRouting
set_option autoImplicit false

/-- The nearest integer, the even one from halfway. -/
def nearest (v : ℚ) : Int :=
  if v - ⌊v⌋ < 1 / 2 then ⌊v⌋
  else if 1 / 2 < v - ⌊v⌋ then ⌊v⌋ + 1
  else ⌊v⌋ + ⌊v⌋ % 2

theorem floor_le_nearest (v : ℚ) : ⌊v⌋ ≤ nearest v := by
  unfold nearest
  split_ifs <;> omega

theorem nearest_le_floor_add_one (v : ℚ) : nearest v ≤ ⌊v⌋ + 1 := by
  unfold nearest
  split_ifs <;> omega

theorem nearest_int (n : Int) : nearest n = n := by
  have hfloor : ⌊(n : ℚ)⌋ = n := Int.floor_intCast n
  unfold nearest
  rw [hfloor, if_pos (by norm_num)]

theorem nearest_mono {v w : ℚ} (h : v ≤ w) : nearest v ≤ nearest w := by
  rcases (Int.floor_mono h).lt_or_eq with hlt | heq
  · have hv := nearest_le_floor_add_one v
    have hw := floor_le_nearest w
    omega
  · unfold nearest
    rw [heq]
    -- Between the same two integers, the larger fraction is on the same side of the half or farther up.
    split_ifs <;> first | omega | (exfalso; linarith)

namespace Double

/-- The exponent with which a number keeps 53 binary digits, unless that is below the least. -/
def exponentOf (q : ℚ) : Int := max (Int.log 2 q - 52) (-1074)

/-- The digits kept. -/
def digitsOf (q : ℚ) : Int := nearest (q / (2 : ℚ) ^ exponentOf q)

/-- The place of digits at an exponent. Digits that were rounded up to a power of two move on to the next exponent, and
beyond the largest exponent there is only the infinite. -/
def spotAt (e n : Int) : Int × Int × Int :=
  if n = 0 then (0, 0, 0)
  else if n = 2 ^ 53 then if 971 < e + 1 then (2, 0, 0) else (1, e + 1, 2 ^ 52)
  else if 971 < e then (2, 0, 0) else (1, e, n)

/-- The place of the double nearest to a number that is not negative. -/
def spot (q : ℚ) : Int × Int × Int := spotAt (exponentOf q) (digitsOf q)

theorem exponentOf_mono {p q : ℚ} (hp : 0 < p) (h : p ≤ q) : exponentOf p ≤ exponentOf q := by
  have hlog := Int.log_mono_right (b := 2) hp h
  unfold exponentOf
  omega

theorem digitsOf_nonneg {q : ℚ} (hq : 0 ≤ q) : 0 ≤ digitsOf q := by
  have hfloor : 0 ≤ ⌊q / (2 : ℚ) ^ exponentOf q⌋ := Int.floor_nonneg.mpr (div_nonneg hq (by positivity))
  exact hfloor.trans (floor_le_nearest _)

theorem digitsOf_le (q : ℚ) : digitsOf q ≤ 2 ^ 53 := by
  have hlt : q < (2 : ℚ) ^ (Int.log 2 q + 1) := by exact_mod_cast Int.lt_zpow_succ_log_self one_lt_two q
  have hle : (2 : ℚ) ^ (Int.log 2 q + 1) ≤ (2 : ℚ) ^ (53 + exponentOf q) := by
    apply zpow_le_zpow_right₀ one_le_two
    unfold exponentOf
    omega
  have hquotient : q / (2 : ℚ) ^ exponentOf q ≤ ((2 ^ 53 : Int) : ℚ) := by
    rw [div_le_iff₀ (by positivity)]
    rw [zpow_add₀ two_ne_zero 53] at hle
    push_cast
    exact (hlt.trans_le hle).le
  exact (nearest_mono hquotient).trans (nearest_int _).le

/-- Above the least exponent a number has all 53 digits. -/
theorem le_quotient {q : ℚ} (hq : 0 < q) (h : -1074 < exponentOf q) :
    ((2 ^ 52 : Int) : ℚ) ≤ q / (2 : ℚ) ^ exponentOf q := by
  have hle : (2 : ℚ) ^ Int.log 2 q ≤ q := by exact_mod_cast Int.zpow_log_le_self one_lt_two hq
  have hexponent : Int.log 2 q = 52 + exponentOf q := by
    unfold exponentOf at h ⊢
    omega
  rw [le_div_iff₀ (by positivity)]
  rw [hexponent, zpow_add₀ two_ne_zero] at hle
  push_cast
  exact hle

theorem le_digitsOf {q : ℚ} (hq : 0 < q) (h : -1074 < exponentOf q) : 2 ^ 52 ≤ digitsOf q :=
  (nearest_int _).ge.trans (nearest_mono (le_quotient hq h))

theorem spotAt_mono {e e' n n' : Int} (hn : 0 ≤ n) (hn' : n ≤ 2 ^ 53) (hle : n' ≤ 2 ^ 53)
    (h : e < e' ∧ 2 ^ 52 ≤ n' ∨ e = e' ∧ n ≤ n') : ¬Precedes (spotAt e' n') (spotAt e n) := by
  unfold spotAt Precedes
  split_ifs <;> dsimp only <;> omega

theorem spot_zero : spot 0 = (0, 0, 0) := by
  have hdigits : digitsOf 0 = 0 := by
    unfold digitsOf
    rw [zero_div]
    exact nearest_int 0
  unfold spot
  rw [hdigits]
  rfl

theorem spot_mono {p q : ℚ} (hp : 0 ≤ p) (h : p ≤ q) : ¬Precedes (spot q) (spot p) := by
  rcases hp.eq_or_lt with rfl | hpos
  · have hq := digitsOf_nonneg h
    rw [spot_zero]
    unfold spot spotAt Precedes
    split_ifs <;> dsimp only <;> omega
  · apply spotAt_mono (digitsOf_nonneg hp) (digitsOf_le p) (digitsOf_le q)
    rcases (exponentOf_mono hpos h).lt_or_eq with hlt | heq
    · left
      exact ⟨hlt, le_digitsOf (hpos.trans_le h) ((le_max_right _ _).trans_lt hlt)⟩
    · right
      refine ⟨heq, ?_⟩
      unfold digitsOf
      rw [heq]
      exact nearest_mono (by gcongr)

/-- The digits and the exponent of a double: all 53 digits, or the least exponent. -/
structure Canonical (m : Nat) (e : Int) : Prop where
  digits : m < 2 ^ 53
  least : -1074 ≤ e
  full : 2 ^ 52 ≤ m ∨ e = -1074

theorem log_mul_zpow {m : Nat} {v : ℚ} (hm : 0 < m) (hle : m ≤ v) (hlt : v < m + 1) (e : Int) :
    Int.log 2 (v * (2 : ℚ) ^ e) = m.log2 + e := by
  have hv : 0 < v := (Nat.cast_pos.mpr hm).trans_le hle
  have hpos : 0 < v * (2 : ℚ) ^ e := by positivity
  have hlow : (2 : ℚ) ^ m.log2 ≤ m := by exact_mod_cast Nat.log2_self_le hm.ne'
  have hhigh : (m : ℚ) + 1 ≤ (2 : ℚ) ^ (m.log2 + 1) := by exact_mod_cast Nat.succ_le_of_lt Nat.lt_log2_self
  apply le_antisymm
  · apply Int.lt_add_one_iff.mp
    apply (Int.lt_zpow_iff_log_lt one_lt_two hpos).mp
    have hsplit : ((2 : Nat) : ℚ) ^ ((m.log2 : Int) + e + 1) = (2 : ℚ) ^ (m.log2 + 1) * (2 : ℚ) ^ e := by
      rw [← zpow_natCast, ← zpow_add₀ two_ne_zero]
      push_cast
      ring_nf
    rw [hsplit]
    exact mul_lt_mul_of_pos_right (hlt.trans_le hhigh) (by positivity)
  · apply (Int.zpow_le_iff_le_log one_lt_two hpos).mp
    have hsplit : ((2 : Nat) : ℚ) ^ ((m.log2 : Int) + e) = (2 : ℚ) ^ m.log2 * (2 : ℚ) ^ e := by
      rw [← zpow_natCast, ← zpow_add₀ two_ne_zero]
      rfl
    rw [hsplit]
    exact mul_le_mul_of_nonneg_right (hlow.trans hle) (by positivity)

theorem Canonical.exponentOf {m : Nat} {e : Int} (h : Canonical m e) (hm : 0 < m) :
    Double.exponentOf (m * (2 : ℚ) ^ e) = e := by
  have hlog := log_mul_zpow hm le_rfl (lt_add_one (m : ℚ)) e
  have hhigh : m.log2 < 53 := (Nat.log2_lt hm.ne').mpr h.digits
  unfold Double.exponentOf
  rw [hlog]
  rcases h.full with hfull | hleast
  · have hlow : 52 ≤ m.log2 := (Nat.le_log2 hm.ne').mpr hfull
    have hleast := h.least
    omega
  · omega

theorem Canonical.spot {m : Nat} {e : Int} (h : Canonical m e) (hm : 0 < m) :
    Double.spot (m * (2 : ℚ) ^ e) = if 971 < e then (2, 0, 0) else (1, e, (m : Int)) := by
  have hdigits : digitsOf (m * (2 : ℚ) ^ e) = m := by
    unfold digitsOf
    rw [h.exponentOf hm, mul_div_cancel_right₀ _ (by positivity)]
    exact nearest_int m
  have hlt := h.digits
  unfold Double.spot
  rw [h.exponentOf hm, hdigits]
  unfold spotAt
  rw [if_neg (by omega), if_neg (by omega)]

end Double

end WalletRouting
