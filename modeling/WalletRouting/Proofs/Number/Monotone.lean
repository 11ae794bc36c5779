import WalletRouting.Proofs.Number.Estimate
import WalletRouting.Proofs.Number.Opposite

/-! # Arithmetic keeps the order

A sum, a product and a quotient are not lower when one part is not lower, as far as they are numbers at all. For a
quotient this takes a positive divisor, for a product a factor that is not negative.
-/
namespace WalletRouting
set_option autoImplicit false

theorem Extended.map_le_map {f g : ℚ → ℚ} (hfg : ∀ r, 0 ≤ r → f r ≤ g r) :
    ∀ {v : Extended}, ofRat 0 ≤ v → v.map f ≤ v.map g
  | ⊥, h => absurd h (bot_lt_ofRat 0).not_ge
  | (⊤ : WithTop ℚ), _ => le_rfl
  | ((r : ℚ) : WithTop ℚ), h => by
    have hr : 0 ≤ r := not_lt.mp fun hlt => h.not_gt (ofRat_lt_ofRat.mpr hlt)
    exact WithBot.coe_le_coe.mpr (WithTop.coe_le_coe.mpr (hfg r hr))

namespace Double

open Float.Model (Format UnpackedFloat)
open Float.Model.UnpackedFloat

variable {x y z : Double} {v : Extended} {p q : ℚ}

/-! ## Finite doubles -/

theorem exactValue_of_isFinite (h : x.isFinite = true) : ∃ q, x.exactValue = some (.ofRat q) := by
  have hmodel : x.isFinite = x.toModel.unpack.isFinite := rfl
  rw [hmodel] at h
  unfold exactValue
  cases hx : x.toModel.unpack with
  | notANumber | infinity s =>
    rw [hx] at h
    cases h
  | zero s => exact ⟨0, rfl⟩
  | finite s m e hm => exact ⟨_, rfl⟩

theorem exists_measures_of_pos (h : 0 < x) (hfinite : x.isFinite = true) : ∃ q, Measures x q ∧ 0 < q := by
  rcases infinite_or_measures (le_of_lt h) with hinfinite | ⟨q, hq⟩
  · have hmodel : x.isFinite = x.toModel.unpack.isFinite := rfl
    rw [hmodel, hinfinite] at hfinite
    cases hfinite
  · exact ⟨q, hq, hq.pos h⟩

theorem finite_of_between (hx : x.exactValue = some (.ofRat p)) (h : x ≤ y) (h' : y ≤ z)
    (hz : z.exactValue = some (.ofRat q)) : ∃ r, y.exactValue = some (.ofRat r) := by
  obtain ⟨v, w, hv, hw, hle⟩ := le_iff_exactValue.mp h
  obtain ⟨w', u, hw', hu, hle'⟩ := le_iff_exactValue.mp h'
  obtain rfl : w = w' := Option.some.inj (hw.symm.trans hw')
  obtain rfl := Option.some.inj (hx.symm.trans hv)
  obtain rfl := Option.some.inj (hz.symm.trans hu)
  have hbot : w ≠ ⊥ := ((Extended.bot_lt_ofRat p).trans_le hle).ne'
  have htop : w ≠ ⊤ := (hle'.trans_lt (Extended.ofRat_lt_top q)).ne
  obtain ⟨w, rfl⟩ := WithBot.ne_bot_iff_exists.mp hbot
  obtain ⟨r, rfl⟩ := WithTop.ne_top_iff_exists.mp fun h => htop (congrArg _ h)
  exact ⟨r, hw⟩

/-! ## Sums -/

theorem Infinite.add_of_ne_bot (hz : Infinite z) (hy : y.exactValue = some v) (hv : v ≠ ⊥) : Infinite (z + y) := by
  have hvalued := valued hy
  rw [add_eq_pack, hz]
  generalize y.toModel.unpack = u at hvalued
  cases hvalued with
  | below => exact absurd rfl hv
  | above | zero | finite => exact infinite_pack

theorem not_pos_add_of_bot (hz : z.toModel.unpack = .infinity .negative) (x : Double) : ¬0 < z + x := by
  rw [add_eq_pack, hz]
  rcases add_infinity .negative x.toModel.unpack with hsum | hsum
  · rw [hsum]
    decide +kernel
  · rw [hsum]
    decide +kernel

theorem exists_exactValue_of_pos_add (h : 0 < z + x) : ∃ v, z.exactValue = some v := by
  cases hplace : place z with
  | none =>
    obtain ⟨-, p, -, hsum, -⟩ := lt_iff.mp h
    cases (place_add_of_none hplace x).symm.trans hsum
  | some p =>
    obtain ⟨v, hv, -⟩ := exists_exactValue_of_place hplace
    exact ⟨v, hv⟩

/-- Whatever a double is added to, unless the sum is no number or not above zero. -/
theorem add_le_add_left_of_pos (h : x ≤ y) (hpos : 0 < z + x) : z + x ≤ z + y := by
  obtain ⟨v, w, hx, hy, hle⟩ := le_iff_exactValue.mp h
  obtain ⟨u, hz⟩ := exists_exactValue_of_pos_add hpos
  have hvalued := valued hz
  generalize hunpack : z.toModel.unpack = a at hvalued
  cases hvalued with
  | below => exact absurd hpos (not_pos_add_of_bot hunpack x)
  | above =>
    have hbot : v ≠ ⊥ := by
      rintro rfl
      have hx' : x.toModel.unpack = .infinity .negative := by
        have hbelow := valued hx
        generalize x.toModel.unpack = a at hbelow
        cases hbelow
        rfl
      rw [Double.add_comm] at hpos
      exact not_pos_add_of_bot hx' z hpos
    have hbot' : w ≠ ⊥ := ((bot_lt_iff_ne_bot.mpr hbot).trans_le hle).ne'
    exact le_infinite (le_of_lt hpos) (Infinite.add_of_ne_bot hunpack hy hbot')
  | zero | finite =>
    rw [Double.add_comm z x, Double.add_comm z y]
    exact Double.add_le_add_right h hz

/-! ## Products -/

protected theorem mul_le_mul_left (hz : 0 ≤ z) (hx : Measures x p) (hy : Measures y q) (hp : 0 < p) (h : p ≤ q) :
    z * x ≤ z * y := by
  obtain ⟨v, w, hzero, hvalue, hle⟩ := le_iff_exactValue.mp hz
  rw [exactValue_of_measures measures_zero] at hzero
  obtain rfl := Option.some.inj hzero
  exact le_of_spotOf (place_mul hvalue hx hp) (place_mul hvalue hy (hp.trans_le h))
    (Extended.map_le_map (fun r hr => mul_le_mul_of_nonneg_left h hr) hle)

/-! ## Quotients -/

protected theorem div_neg (u v : UnpackedFloat) : div Format.binary64 u.neg v = (div Format.binary64 u v).neg := by
  have hsign (s t : Sign) : -s / t = -(s / t) := by cases s <;> cases t <;> rfl
  cases u <;> cases v <;> simp only [neg, div, hsign, roundWithAccuracy_neg]

theorem place_div_signed {m n : Nat} (d e : Int) (hm : 0 < m) (hn : 0 < n) (s : Sign) :
    place (.ofModel (.pack (div Format.binary64 (.finite s m d hm) (.finite .positive n e hn)))) =
      some (signedSpot (s.apply m * (2 : ℚ) ^ d / (n * (2 : ℚ) ^ e))) := by
  refine place_pack_signed (fun s => div Format.binary64 (.finite s m d hm) (.finite .positive n e hn))
    (fun s => s.apply m * (2 : ℚ) ^ d / (n * (2 : ℚ) ^ e)) ?_ ?_ ?_ (place_div_finite d e hm hn) s
  · exact Double.div_neg (.finite .positive m d hm) (.finite .positive n e hn)
  · simp [Sign.apply, neg_div]
  · simp only [Sign.apply]
    positivity

theorem place_div (hx : x.exactValue = some v) (hy : Measures y q) (hq : 0 < q) :
    place (x / y) = some (spotOf (v.map (· / q))) := by
  have hleft := valued hx
  rw [div_eq_pack]
  generalize x.toModel.unpack = a at hleft
  rcases hy.cases with ⟨t, -, rfl⟩ | ⟨n, e, hn, hunpack, rfl⟩
  · exact absurd hq (lt_irrefl 0)
  · rw [hunpack]
    cases hleft with
    | below => exact congrArg placeOf (unpack_pack_infinity .negative)
    | above => exact congrArg placeOf (unpack_pack_infinity .positive)
    | zero s =>
      rw [Extended.map_ofRat, spotOf_ofRat, zero_div, signedSpot_zero]
      exact place_pack_zero _
    | finite s m d hm _ _ =>
      rw [Extended.map_ofRat, spotOf_ofRat]
      exact place_div_signed d e hm hn s

protected theorem div_le_div_right (h : x ≤ y) (hz : Measures z q) (hq : 0 < q) : x / z ≤ y / z := by
  obtain ⟨v, w, hx, hy, hle⟩ := le_iff_exactValue.mp h
  exact le_of_spotOf (place_div hx hz hq) (place_div hy hz hq)
    (Extended.map_mono (fun _ _ h => div_le_div_of_nonneg_right h hq.le) hle)

theorem le_or_lt_of_place {r t : Int × Int × Int} (hx : place x = some r) (hy : place y = some t) : x ≤ y ∨ y < x := by
  by_cases h : Precedes t r
  · exact Or.inr (lt_iff.mpr ⟨t, r, hy, hx, h⟩)
  · exact Or.inl (le_iff.mpr ⟨r, t, hx, hy, h⟩)

theorem exists_place_of_pos (h : 0 < x) : ∃ r, place x = some r := by
  obtain ⟨-, r, -, hr, -⟩ := lt_iff.mp h
  exact ⟨r, hr⟩

theorem place_div_of_none (h : place x = none ∨ place y = none) : place (x / y) = none := by
  rw [div_eq_pack]
  rcases h with h | h
  · rw [eq_notANumber h]
    exact place_pack_notANumber
  · rw [eq_notANumber h]
    cases x.toModel.unpack <;> exact place_pack_notANumber

theorem Infinite.not_pos_div (hy : Infinite y) (x : Double) : ¬0 < x / y := by
  have hnone : ¬(0 : Double) < .ofModel (.pack .notANumber) := by decide +kernel
  have hzero (s : Sign) : ¬(0 : Double) < .ofModel (.pack (.zero s)) := by cases s <;> decide +kernel
  rw [div_eq_pack, hy]
  cases x.toModel.unpack with
  | notANumber | infinity s => exact hnone
  | zero s | finite s m e hm => exact hzero _

theorem exists_measures_of_pos_div (hy : ¬y ≤ 0) (hpos : 0 < x / y) : ∃ q, Measures y q ∧ 0 < q := by
  obtain ⟨r, hr⟩ := exists_place_of_pos hpos
  cases hplace : place y with
  | none => cases (place_div_of_none (Or.inr hplace)).symm.trans hr
  | some t =>
    have hpositive : 0 < y := (le_or_lt_of_place hplace place_zero).resolve_left hy
    rcases infinite_or_measures (le_of_lt hpositive) with hinfinite | ⟨q, hq⟩
    · exact absurd hpos (hinfinite.not_pos_div x)
    · exact ⟨q, hq, hq.pos hpositive⟩

theorem pos_of_pos_div (hy : Measures y q) (hq : 0 < q) (hpos : 0 < x / y) : 0 < x := by
  obtain ⟨r, hr⟩ := exists_place_of_pos hpos
  cases hplace : place x with
  | none => cases (place_div_of_none (Or.inl hplace)).symm.trans hr
  | some t =>
    rcases le_or_lt_of_place hplace place_zero with hle | hlt
    · have hzero : place (0 / y) = place 0 := by
        rw [place_div (exactValue_of_measures measures_zero) hy hq, Extended.map_ofRat, spotOf_ofRat, zero_div,
          signedSpot_zero]
        rfl
      have hquotient := Double.div_le_div_right hle hy hq
      rw [le_congr rfl hzero] at hquotient
      exact absurd hpos (not_lt_of_le hquotient)
    · exact hlt

theorem add_div_le_add_div {w : Double} (hw : ¬w ≤ 0) (h : x ≤ y) (hpos : 0 < (z + x) / w) :
    (z + x) / w ≤ (z + y) / w := by
  obtain ⟨q, hmeasures, hq⟩ := exists_measures_of_pos_div hw hpos
  exact Double.div_le_div_right (add_le_add_left_of_pos h (pos_of_pos_div hmeasures hq hpos)) hmeasures hq

end Double

end WalletRouting
