import WalletRouting.Proofs.Number.Arithmetic

/-! # Estimates of doubles

A double that is not negative measures a rational or is infinite. Sums and products of such doubles are not negative, a
sum is not below its parts, a part of a sum is at most once as large, and a floor is at least what the double is not below.
-/
namespace WalletRouting
set_option autoImplicit false

namespace Double

open Float.Model (Format UnpackedFloat)
open Float.Model.UnpackedFloat

variable {x y : Double} {p q : ℚ}

theorem Infinite.place (h : Infinite x) : place x = some (2, 0, 0) := by
  unfold Double.place
  rw [h]
  rfl

theorem place_zero : place 0 = some (0, 0, 0) := rfl

theorem infinite_or_measures (h : 0 ≤ x) : Infinite x ∨ ∃ q, Measures x q := by
  obtain ⟨p, r, hzero, hplace, hnot⟩ := le_iff.mp h
  cases place_zero.symm.trans hzero
  unfold Infinite Measures
  unfold Double.place at hplace
  rcases hx : x.toModel.unpack with (_ | _) | _ | s | ⟨_ | _, m, e, hm⟩ <;> rw [hx] at hplace <;> cases hplace
  · exact absurd (Or.inl (by decide)) hnot
  · exact Or.inl rfl
  · exact Or.inr ⟨0, rfl⟩
  · exact absurd (Or.inl (by decide : (-1 : Int) < 0)) hnot
  · exact Or.inr ⟨_, rfl⟩

/-! ## Order -/

theorem Measures.place_fst_lt (h : Measures x q) : ∃ r, Double.place x = some r ∧ r.1 < 2 := by
  unfold Double.place
  rcases h.cases with ⟨s, hx, -⟩ | ⟨m, e, hm, hx, -⟩ <;> rw [hx]
  · exact ⟨_, rfl, by decide⟩
  · exact ⟨_, rfl, (by decide : (1 : Int) < 2)⟩

theorem Measures.lt_infinite (hx : Measures x p) (hy : Infinite y) : x < y := by
  obtain ⟨r, hplace, hr⟩ := hx.place_fst_lt
  exact lt_iff.mpr ⟨_, _, hplace, hy.place, Or.inl hr⟩

theorem le_infinite (hx : 0 ≤ x) (hy : Infinite y) : x ≤ y := by
  rcases infinite_or_measures hx with hx | ⟨p, hx⟩
  · refine le_iff.mpr ⟨_, _, hx.place, hy.place, ?_⟩
    unfold Precedes
    omega
  · exact le_of_lt (hx.lt_infinite hy)

theorem le_of_spot (hx : place x = some (spot p)) (hy : place y = some (spot q)) (hp : 0 ≤ p) (h : p ≤ q) : x ≤ y :=
  le_iff.mpr ⟨_, _, hx, hy, spot_mono hp h⟩

theorem Measures.eq_of_place (hp : Measures x p) (hq : Measures y q) (h : Double.place x = Double.place y) : p = q := by
  unfold Double.place at h
  rcases hp.cases with ⟨s, hx, rfl⟩ | ⟨m, d, hm, hx, rfl⟩ <;>
    rcases hq.cases with ⟨s', hy, rfl⟩ | ⟨n, e, hn, hy, rfl⟩ <;> rw [hx, hy] at h
  · cases h
  · cases h
  · cases h
    rfl

theorem Measures.le_iff (hx : Measures x p) (hy : Measures y q) : x ≤ y ↔ p ≤ q := by
  constructor
  · intro hle
    by_contra hlt
    have hback : y ≤ x := le_of_spot hy.place hx.place hy.nonneg (le_of_not_ge hlt)
    exact hlt (hx.eq_of_place hy (place_eq_of_le_of_le hle hback)).le
  · exact le_of_spot hx.place hy.place hx.nonneg

theorem measures_zero : Measures 0 0 := rfl

theorem zero_le_of_spot (hplace : place x = some (spot q)) (hq : 0 ≤ q) : 0 ≤ x :=
  le_of_spot measures_zero.place hplace le_rfl hq

theorem Infinite.zero_le (h : Infinite x) : 0 ≤ x :=
  le_of_lt (measures_zero.lt_infinite h)

theorem Measures.zero_le (h : Measures x q) : 0 ≤ x := zero_le_of_spot h.place h.nonneg

theorem Measures.pos (h : Measures x q) (hx : 0 < x) : 0 < q := by
  refine h.nonneg.lt_of_ne ?_
  rintro rfl
  exact not_lt_of_le ((h.le_iff measures_zero).mpr le_rfl) hx

theorem measures_of_le (hx : 0 ≤ x) (h : x ≤ y) (hy : Measures y q) : ∃ p, Measures x p := by
  rcases infinite_or_measures hx with hx | hx
  · exact absurd (hy.lt_infinite hx) (not_lt_of_le h)
  · exact hx

theorem Infinite.of_le (hx : Infinite x) (h : x ≤ y) : Infinite y := by
  rcases infinite_or_measures (le_trans hx.zero_le h) with hy | ⟨q, hy⟩
  · exact hy
  · exact absurd (hy.lt_infinite hx) (not_lt_of_le h)

theorem pos_of_beq_zero (hx : 0 ≤ x) (hne : (x == 0.0) = false) : 0 < x := by
  obtain ⟨r, r', hr, hr', hnot⟩ := Double.le_iff.mp hx
  obtain ⟨o, ho, hlt, hgt⟩ := compare_spec hr' hr
  have hmodel : (x == 0.0) = (x.toModel.unpack.compare (0 : Double).toModel.unpack == some .eq) := rfl
  rw [hmodel, ho] at hne
  refine lt_iff.mpr ⟨r, r', hr, hr', ?_⟩
  cases o with
  | eq => exact absurd hne (by decide)
  | lt => exact absurd (hlt.mp rfl) hnot
  | gt => exact hgt.mp rfl

theorem Infinite.beq_zero (h : Infinite x) : (x == 0.0) = false := by
  have hmodel : (x == 0.0) = (x.toModel.unpack.compare (0 : Double).toModel.unpack == some .eq) := rfl
  rw [hmodel, h]
  rfl

theorem clamp_between {low high : Double} (h : low ≤ high) (x : Double) :
    low ≤ clamp low high x ∧ clamp low high x ≤ high := by
  obtain ⟨p, q, hp, hq, hle⟩ := le_iff.mp h
  unfold clamp atLeast atMost
  split_ifs with hhigh hlow hlow
  · exact ⟨le_of_lt hlow, le_of_lt hhigh⟩
  · exact ⟨le_self hp, h⟩
  · exact ⟨le_of_lt hlow, le_self hq⟩
  · exact ⟨le_self hp, h⟩

theorem clamp_bounds (x : Double) : 0 ≤ clamp 0 1 x ∧ clamp 0 1 x ≤ 1 := clamp_between (by decide) x

/-! ## Arithmetic -/

theorem infinite_pack : Infinite (.ofModel (.pack (.infinity .positive))) := unpack_pack_infinity .positive

theorem Infinite.add_right (hx : Infinite x) (hy : 0 ≤ y) : Infinite (x + y) := by
  rw [add_eq_pack, hx]
  rcases infinite_or_measures hy with hy | ⟨q, hy⟩
  · rw [hy]
    exact infinite_pack
  · rcases hy.cases with ⟨s, hy, -⟩ | ⟨m, e, hm, hy, -⟩ <;> rw [hy] <;> exact infinite_pack

theorem Infinite.add_left (hy : Infinite y) (hx : 0 ≤ x) : Infinite (x + y) := by
  rw [add_eq_pack, hy]
  rcases infinite_or_measures hx with hx | ⟨q, hx⟩
  · rw [hx]
    exact infinite_pack
  · rcases hx.cases with ⟨s, hx, -⟩ | ⟨m, e, hm, hx, -⟩ <;> rw [hx] <;> exact infinite_pack

theorem le_add_right (hx : 0 ≤ x) (hy : 0 ≤ y) : x ≤ x + y := by
  rcases infinite_or_measures hx with hxi | ⟨p, hp⟩
  · exact le_infinite hx (hxi.add_right hy)
  · rcases infinite_or_measures hy with hyi | ⟨q, hq⟩
    · exact le_infinite hx (hyi.add_left hx)
    · exact le_of_spot hp.place (hp.place_add hq) hp.nonneg (le_add_of_nonneg_right hq.nonneg)

theorem le_add_left (hx : 0 ≤ x) (hy : 0 ≤ y) : y ≤ x + y := by
  rcases infinite_or_measures hx with hxi | ⟨p, hp⟩
  · exact le_infinite hy (hxi.add_right hy)
  · rcases infinite_or_measures hy with hyi | ⟨q, hq⟩
    · exact le_infinite hy (hyi.add_left hx)
    · exact le_of_spot hq.place (hp.place_add hq) hq.nonneg (le_add_of_nonneg_left hp.nonneg)

theorem Measures.zero_le_mul (hp : Measures x p) (hq : Measures y q) : 0 ≤ x * y :=
  zero_le_of_spot (hp.place_mul hq) (mul_nonneg hp.nonneg hq.nonneg)

/-- A product is not negative, unless it is of the infinite and zero. -/
theorem zero_le_mul (hx : 0 ≤ x) (hy : Measures y q) (hpos : 0 < q) : 0 ≤ x * y := by
  rcases infinite_or_measures hx with hx | ⟨p, hp⟩
  · rcases hy.cases with ⟨s, -, rfl⟩ | ⟨m, e, hm, hy, -⟩
    · exact absurd hpos (lt_irrefl 0)
    · rw [mul_eq_pack, hx, hy]
      exact infinite_pack.zero_le
  · exact hp.zero_le_mul hy

theorem Measures.div_infinite (hp : Measures x p) (hy : Infinite y) : Double.place (x / y) = some (spot 0) := by
  rw [div_eq_pack, hy, spot_zero]
  rcases hp.cases with ⟨s, hx, -⟩ | ⟨m, e, hm, hx, -⟩ <;> rw [hx] <;> exact place_pack_zero _

theorem Measures.zero_le_div (hp : Measures x p) (hy : 0 < y) : 0 ≤ x / y := by
  rcases infinite_or_measures (le_of_lt hy) with hyi | ⟨q, hq⟩
  · exact zero_le_of_spot (hp.div_infinite hyi) le_rfl
  · have hpos := hq.pos hy
    exact zero_le_of_spot (hp.place_div hq hpos) (div_nonneg hp.nonneg hpos.le)

theorem zero_le_div (hx : 0 ≤ x) (hq : Measures y q) (hpos : 0 < q) : 0 ≤ x / y := by
  rcases infinite_or_measures hx with hx | ⟨p, hp⟩
  · rcases hq.cases with ⟨s, -, rfl⟩ | ⟨m, e, hm, hy, -⟩
    · exact absurd hpos (lt_irrefl 0)
    · rw [div_eq_pack, hx, hy]
      exact infinite_pack.zero_le
  · exact zero_le_of_spot (hp.place_div hq hpos) (div_nonneg hp.nonneg hpos.le)

theorem measures_one : Measures 1 1 := by
  have hunpack : (1 : Double).toModel.unpack = .finite .positive (2 ^ 52) (-52) (by decide) := rfl
  unfold Measures
  rw [hunpack]
  norm_num [Counts]

theorem Measures.part_le_one (hp : Measures x p) (hle : x ≤ y) (hy : 0 < y) : x / y ≤ 1 := by
  rcases infinite_or_measures (le_of_lt hy) with hyi | ⟨q, hq⟩
  · exact le_of_spot (hp.div_infinite hyi) measures_one.place le_rfl zero_le_one
  · have hpos := hq.pos hy
    refine le_of_spot (hp.place_div hq hpos) measures_one.place (div_nonneg hp.nonneg hpos.le) ?_
    exact (div_le_one hpos).mpr ((hp.le_iff hq).mp hle)

theorem Infinite.not_zero_le_div (hx : Infinite x) (hy : Infinite y) : ¬0 ≤ x / y := by
  rw [div_eq_pack, hx, hy, Double.le_iff]
  rintro ⟨r, r', -, hr', -⟩
  cases (congrArg placeOf unpack_pack_notANumber).symm.trans hr'

end Double

end WalletRouting
