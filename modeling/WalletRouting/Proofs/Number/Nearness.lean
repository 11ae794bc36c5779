import WalletRouting.Proofs.Number.Scientific

/-! # Nearness and rounding

What is near a double is rounded to it, since a number is near the double that it is rounded to and near no other one.
-/
namespace WalletRouting
set_option autoImplicit false

/-- A number is no farther than a half from the integer nearest to it, and nearer than that if the integer is odd. -/
theorem nearest_bounds (v : ℚ) :
    nearest v - 1 / 2 ≤ v ∧ v ≤ nearest v + 1 / 2 ∧
      (nearest v % 2 = 1 → nearest v - 1 / 2 < v ∧ v < nearest v + 1 / 2) := by
  have hlow := Int.floor_le v
  have hhigh := Int.lt_floor_add_one v
  unfold nearest
  split_ifs with hbelow habove
  · exact ⟨by linarith, by linarith, fun _ => ⟨by linarith, by linarith⟩⟩
  · push_cast
    exact ⟨by linarith, by linarith, fun _ => ⟨by linarith, by linarith⟩⟩
  · have hhalf : v = ⌊v⌋ + 1 / 2 := by linarith
    -- From halfway it is the even neighbour.
    rcases Int.emod_two_eq_zero_or_one ⌊v⌋ with heven | hodd
    · rw [heven, Int.add_zero]
      exact ⟨by linarith, by linarith, fun h => by omega⟩
    · rw [hodd]
      push_cast
      exact ⟨by linarith, by linarith, fun h => by omega⟩

namespace Double

open Decimal (Near interval)

variable {m : Nat} {e : Int} {v : ℚ}

theorem zpow_eq_four_mul (e : Int) : (2 : ℚ) ^ e = 4 * (2 : ℚ) ^ (e - 2) := by
  rw [zpow_sub₀ two_ne_zero]
  ring

theorem near_digitsOf (hv : 0 < v) {n : Nat} (hn : digitsOf v = n) : Near n (exponentOf v) v := by
  have hquotient : v = v / (2 : ℚ) ^ exponentOf v * 4 * (2 : ℚ) ^ (exponentOf v - 2) := by
    rw [mul_assoc, ← zpow_eq_four_mul, div_mul_cancel₀ _ (by positivity)]
  have hpos : 0 < v / (2 : ℚ) ^ exponentOf v := by positivity
  have hfull : exponentOf v ≠ -1074 → (2 ^ 52 : ℚ) ≤ v / (2 : ℚ) ^ exponentOf v := by
    intro hne
    exact_mod_cast le_quotient hv (lt_of_le_of_ne (le_max_right _ _) hne.symm)
  have hnearest : nearest (v / (2 : ℚ) ^ exponentOf v) = n := hn
  obtain ⟨hlow, hhigh, hodd⟩ := hnearest ▸ nearest_bounds (v / (2 : ℚ) ^ exponentOf v)
  push_cast at hlow hhigh hodd
  generalize v / (2 : ℚ) ^ exponentOf v = t at *
  generalize exponentOf v = e at *
  have hunit : (0 : ℚ) < (2 : ℚ) ^ (e - 2) := by positivity
  have hup : ((interval n e).high : ℚ) = 4 * n + 2 := by
    simp only [interval]
    push_cast
    ring
  have hdown : ((interval n e).low : ℚ) ≤ t * 4 ∧ (n % 2 = 1 → ((interval n e).low : ℚ) < t * 4) := by
    simp only [interval, Nat.pow_eq]
    split
    · next hleast =>
      have ht := hfull hleast.2
      have hfirst : (n : ℚ) = 2 ^ 52 := by exact_mod_cast hleast.1
      rw [Nat.cast_sub (by omega)]
      push_cast
      exact ⟨by linarith, fun h => absurd h (by omega)⟩
    · rcases Nat.eq_zero_or_pos n with rfl | hdigits
      · exact ⟨by simpa using hpos.le, fun _ => by simpa using hpos⟩
      · rw [Nat.cast_sub (by omega)]
        push_cast
        refine ⟨by linarith, fun h => ?_⟩
        have := (hodd (by omega)).1
        linarith
  rw [hquotient]
  constructor
  · exact mul_le_mul_of_nonneg_right hdown.1 hunit.le
  · rw [hup]
    exact mul_le_mul_of_nonneg_right (by linarith) hunit.le
  · intro h
    have habove := (hodd (by omega)).2
    rw [hup]
    exact ⟨mul_lt_mul_of_pos_right (hdown.2 h) hunit, mul_lt_mul_of_pos_right (by linarith) hunit⟩

/-- What is near digits that were rounded up to a power of two is near the double that begins there. -/
theorem near_first (h : Near (2 ^ 53) e v) (he : -1074 ≤ e) : Near (2 ^ 52) (e + 1) v := by
  have hstep : (2 : ℚ) ^ (e + 1 - 2) = 2 * (2 : ℚ) ^ (e - 2) := by
    rw [← zpow_one_add₀ two_ne_zero]
    congr 1
    omega
  have hunit : (0 : ℚ) < (2 : ℚ) ^ (e - 2) := by positivity
  have hlow := h.low
  have hhigh := h.high
  simp only [interval, Nat.pow_eq] at hlow hhigh
  rw [if_neg (by omega)] at hlow
  refine ⟨?_, ?_, fun hodd => absurd hodd (by norm_num)⟩
  · simp only [interval, Nat.pow_eq]
    rw [if_pos ⟨trivial, by omega⟩, hstep]
    push_cast at hlow ⊢
    linarith
  · simp only [interval, Nat.pow_eq]
    rw [hstep]
    push_cast at hhigh ⊢
    linarith

theorem spot_of_near (h : Canonical m e) (hm : 0 < m) (hnear : Near m e v) :
    spot v = if 971 < e then (2, 0, 0) else (1, e, (m : Int)) := by
  have hv := hnear.pos hm
  obtain ⟨n, hn⟩ := Int.eq_ofNat_of_zero_le (digitsOf_nonneg hv.le)
  have hkept := near_digitsOf hv hn
  have hle := digitsOf_le v
  have hleast : -1074 ≤ exponentOf v := le_max_right _ _
  unfold spot
  rw [hn] at hle ⊢
  rcases (show n ≤ 2 ^ 53 by exact_mod_cast hle).lt_or_eq with hlt | rfl
  · have hcanonical : Canonical n (exponentOf v) := by
      refine ⟨hlt, hleast, ?_⟩
      rcases hleast.lt_or_eq with hlt | heq
      · have hfull := le_digitsOf hv hlt
        rw [hn] at hfull
        exact Or.inl (by exact_mod_cast hfull)
      · exact Or.inr heq.symm
    obtain ⟨rfl, rfl⟩ := hnear.unique h hcanonical hkept
    unfold spotAt
    rw [if_neg (by omega), if_neg (by omega)]
  · have hfirst : Canonical (2 ^ 52) (exponentOf v + 1) := ⟨by norm_num, by omega, Or.inl le_rfl⟩
    obtain ⟨rfl, rfl⟩ := hnear.unique h hfirst (near_first hkept hleast)
    rfl

/-! ## The error of a rounding -/

theorem Measures.of_spotAt {x : Double} {q : ℚ} {n : Nat} (hx : Measures x q) (hn : 0 < n)
    (hplace : Double.place x = some (spotAt e n)) : q = n * (2 : ℚ) ^ e := by
  have hvalue {m : Nat} {d : Int} (h : Double.place x = some (1, d, (m : Int))) : q = m * (2 : ℚ) ^ d :=
    hx.eq_of_place (measures_of_place h) rfl
  have hfinite : Double.place x ≠ some (2, 0, 0) := by
    intro hinfinite
    obtain ⟨r, hr, hlt⟩ := hx.place_fst_lt
    cases hinfinite.symm.trans hr
    exact absurd hlt (by decide)
  unfold spotAt at hplace
  rw [if_neg (by omega)] at hplace
  split_ifs at hplace with hfull
  · exact absurd hplace hfinite
  · rw [hvalue (m := 2 ^ 52) hplace, zpow_add_one₀ two_ne_zero, show n = 2 ^ 53 by exact_mod_cast hfull]
    push_cast
    ring
  · exact absurd hplace hfinite
  · exact hvalue hplace

/-- Where doubles are dense, rounding moves a number by no more than one part in `2 ^ 53`. -/
theorem Measures.rounding_error {x : Double} {q : ℚ} (hx : Measures x q) (hplace : Double.place x = some (spot v))
    (hv : 0 < v) (hdense : -1074 < exponentOf v) : |q - v| ≤ v / 2 ^ 53 := by
  have hfull := le_digitsOf hv hdense
  have hquotient := le_quotient hv hdense
  obtain ⟨n, hn⟩ := Int.eq_ofNat_of_zero_le (digitsOf_nonneg hv.le)
  have hvalue : q = n * (2 : ℚ) ^ exponentOf v := by
    unfold spot at hplace
    rw [hn] at hplace hfull
    exact hx.of_spotAt (by omega) hplace
  have hsplit : v = v / (2 : ℚ) ^ exponentOf v * (2 : ℚ) ^ exponentOf v := (div_mul_cancel₀ _ (by positivity)).symm
  have hnearest : nearest (v / (2 : ℚ) ^ exponentOf v) = n := hn
  obtain ⟨hlow, hhigh, -⟩ := hnearest ▸ nearest_bounds (v / (2 : ℚ) ^ exponentOf v)
  push_cast at hlow hhigh hquotient
  have hunit : (0 : ℚ) < (2 : ℚ) ^ exponentOf v := by positivity
  generalize v / (2 : ℚ) ^ exponentOf v = w at *
  generalize (2 : ℚ) ^ exponentOf v = unit at *
  -- In units of the last digit kept, the error is at most a half and the number at least `2 ^ 52`.
  have herror : |(n : ℚ) - w| ≤ w / 2 ^ 53 := by
    rw [abs_le]
    constructor <;> linarith
  calc |q - v| = |(n : ℚ) - w| * unit := by rw [hvalue, hsplit, ← sub_mul, abs_mul, abs_of_pos hunit]
    _ ≤ w / 2 ^ 53 * unit := mul_le_mul_of_nonneg_right herror hunit.le
    _ = v / 2 ^ 53 := by rw [hsplit]; ring

end Double

end WalletRouting
