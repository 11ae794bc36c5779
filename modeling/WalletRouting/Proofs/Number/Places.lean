import WalletRouting.Proofs.Number.Scientific

/-! # Arithmetic on places

Two doubles of one place are the same double, or both are zero. The sign of a zero is told at most by a zero that is
computed from it. So the place of a sum, a difference or a product comes from the places of its parts, and the place of
what is brought between two bounds from its own. What is rounded to decimal places keeps the order.
-/
namespace WalletRouting
set_option autoImplicit false

namespace Double

open Float.Model (Format UnpackedFloat)
open Float.Model.UnpackedFloat

variable {x x' y y' z : Double} {p q : ℚ}

theorem eq_or_zero_of_placeOf {a b : UnpackedFloat} (h : placeOf a = placeOf b) :
    a = b ∨ ∃ s s', a = .zero s ∧ b = .zero s' := by
  rcases a with (_ | _) | _ | s | ⟨_ | _, m, d, hm⟩ <;> rcases b with (_ | _) | _ | s' | ⟨_ | _, n, e, hn⟩ <;>
    simp_all [placeOf]

/-- What is computed from a double has a place that comes from that of the double, if it does where the double is zero. -/
theorem place_congr (f : UnpackedFloat → UnpackedFloat)
    (hzero : ∀ s s', place (.ofModel (.pack (f (.zero s)))) = place (.ofModel (.pack (f (.zero s')))))
    (h : place x = place x') :
    place (.ofModel (.pack (f x.toModel.unpack))) = place (.ofModel (.pack (f x'.toModel.unpack))) := by
  rcases eq_or_zero_of_placeOf h with hsame | ⟨s, s', hx, hx'⟩
  · rw [hsame]
  · rw [hx, hx']
    exact hzero s s'

theorem place_pack_zeros (s s' : Sign) :
    place (.ofModel (.pack (.zero s))) = place (.ofModel (.pack (.zero s'))) :=
  (place_pack_zero s).trans (place_pack_zero s').symm

theorem place_add_congr (hx : place x = place x') (hy : place y = place y') : place (x + y) = place (x' + y') := by
  rw [add_eq_pack, add_eq_pack]
  trans place (.ofModel (.pack (add Format.binary64 x'.toModel.unpack y.toModel.unpack)))
  · refine place_congr (fun a => add Format.binary64 a y.toModel.unpack) (fun s s' => ?_) hx
    cases y.toModel.unpack with
    | zero t => cases s <;> cases s' <;> cases t <;> exact place_pack_zeros _ _
    | _ => rfl
  · refine place_congr (fun b => add Format.binary64 x'.toModel.unpack b) (fun s s' => ?_) hy
    cases x'.toModel.unpack with
    | zero t => cases s <;> cases s' <;> cases t <;> exact place_pack_zeros _ _
    | _ => rfl

theorem place_sub_congr (hx : place x = place x') (y : Double) : place (x - y) = place (x' - y) := by
  have hsub (x : Double) : x - y = .ofModel (.pack (sub Format.binary64 x.toModel.unpack y.toModel.unpack)) := rfl
  rw [hsub, hsub]
  refine place_congr (fun a => sub Format.binary64 a y.toModel.unpack) (fun s s' => ?_) hx
  cases y.toModel.unpack with
  | zero t => cases s <;> cases s' <;> cases t <;> exact place_pack_zeros _ _
  | _ => rfl

theorem place_mul_congr (x : Double) (hy : place y = place y') : place (x * y) = place (x * y') := by
  rw [mul_eq_pack, mul_eq_pack]
  refine place_congr (fun b => mul Format.binary64 x.toModel.unpack b) (fun s s' => ?_) hy
  cases x.toModel.unpack with
  | infinity | notANumber => rfl
  | zero | finite => exact place_pack_zeros _ _

theorem lt_congr (hx : place x = place x') (hy : place y = place y') : x < y ↔ x' < y' := by
  rw [lt_iff, lt_iff, hx, hy]

theorem le_congr (hx : place x = place x') (hy : place y = place y') : x ≤ y ↔ x' ≤ y' := by
  rw [le_iff, le_iff, hx, hy]

theorem place_clamp_congr (low high : Double) (h : place x = place x') :
    place (clamp low high x) = place (clamp low high x') := by
  have hmost : place (atMost high x) = place (atMost high x') := by
    unfold atMost
    rw [if_congr (lt_congr h rfl) rfl rfl]
    split
    · exact h
    · rfl
  unfold clamp atLeast
  rw [if_congr (lt_congr rfl hmost) rfl rfl]
  split
  · exact hmost
  · rfl

theorem place_eq_of_le_of_not_lt (h : x ≤ y) (hnot : ¬x < y) : place x = place y := by
  obtain ⟨p, q, hx, hy, hle⟩ := le_iff.mp h
  rw [hx, hy, eq_of_not_precedes (fun hprecedes => hnot (lt_iff.mpr ⟨p, q, hx, hy, hprecedes⟩)) hle]

theorem place_clamp {low high : Double} (hlow : low ≤ x) (hhigh : x ≤ high) : place (clamp low high x) = place x := by
  have hmost : place (atMost high x) = place x := by
    unfold atMost
    split
    · rfl
    · next hnot => exact (place_eq_of_le_of_not_lt hhigh hnot).symm
  unfold clamp atLeast
  split
  · exact hmost
  · next hnot =>
    rw [lt_congr rfl hmost] at hnot
    exact place_eq_of_le_of_not_lt hlow hnot

/-! ## Bounds and the order -/

theorem atMost_mono {high : Double} (hhigh : high ≤ high) (h : x ≤ y) : atMost high x ≤ atMost high y := by
  unfold atMost
  split_ifs with hx hy hy
  · exact h
  · exact le_of_lt hx
  · exact absurd (lt_of_le_of_lt h hy) hx
  · exact hhigh

theorem atLeast_mono {low : Double} (hlow : low ≤ low) (h : x ≤ y) : atLeast low x ≤ atLeast low y := by
  unfold atLeast
  split_ifs with hx hy hy
  · exact h
  · exact absurd (Double.lt_of_lt_of_le hx h) hy
  · exact le_of_lt hy
  · exact hlow

theorem clamp_mono {low high : Double} (hbounds : low ≤ high) (h : x ≤ y) : clamp low high x ≤ clamp low high y := by
  obtain ⟨p, q, hlow, hhigh, -⟩ := le_iff.mp hbounds
  exact atLeast_mono (le_self hlow) (atMost_mono (le_self hhigh) h)

theorem clamp_of_not_lt {low high : Double} (hbounds : low < high) (h : ¬x < high) : clamp low high x = high := by
  unfold clamp atLeast atMost
  rw [if_neg h, if_pos hbounds]

theorem place_of_beq {x y : Double} (h : (x == y) = true) : place x = place y := by
  have hmodel : (x == y) = (x.toModel.unpack.compare y.toModel.unpack == some .eq) := rfl
  rw [hmodel] at h
  cases hx : place x with
  | none => simp [compare_of_placeOf_eq_none (Or.inl hx)] at h
  | some p =>
    cases hy : place y with
    | none => simp [compare_of_placeOf_eq_none (Or.inr hy)] at h
    | some q =>
      obtain ⟨o, ho, hlt, hgt⟩ := compare_spec hx hy
      rw [ho] at h
      cases o with
      | eq =>
        have hle : ¬Precedes p q := by simp [← hlt]
        have hge : ¬Precedes q p := by simp [← hgt]
        rw [eq_of_not_precedes hle hge]
      | lt => cases h
      | gt => cases h

theorem place_neg_zero (h : place z = place 0) : place (-z) = place 0 := by
  have hneg : -z = .ofModel (.pack (neg z.toModel.unpack)) := rfl
  have hzero : (0 : Double) = .ofModel (.pack (.zero .positive)) := rfl
  rw [hneg]
  refine (place_congr neg (fun s s' => place_pack_zeros _ _) h).trans ?_
  exact place_pack_zero _

theorem Measures.of_place (h : Measures x q) (hplace : Double.place y = Double.place x) : Measures y q := by
  unfold Measures at h ⊢
  rcases eq_or_zero_of_placeOf hplace with hsame | ⟨s, s', hy, hx⟩
  · rwa [hsame]
  · rw [hx] at h
    rw [hy]
    exact h

theorem Measures.place_add_zero (h : Measures x q) (hz : Double.place z = Double.place 0) :
    Double.place (x + z) = Double.place x := by
  rw [place_add_congr rfl hz, h.place_add measures_zero, add_zero, h.place]

theorem Measures.place_div_one (h : Measures x q) (hy : Double.place y = Double.place 1) :
    Double.place (x / y) = Double.place x := by
  rw [h.place_div (measures_one.of_place hy) zero_lt_one, div_one, h.place]

/-! ## Rounding to decimal places -/

theorem Measures.place_roundPlaces (h : Measures x q) {places : Nat} (hplaces : places ≤ 2 ^ 11) :
    Double.place (x.roundPlaces places) = some (spot (nearest (q * 10 ^ places) / 10 ^ places)) := by
  obtain ⟨negative, m, e, hreading, rfl, hnegative⟩ := h.reading
  have hden := Binary.ratio_den_pos m e
  generalize hdigits : roundHalfEven ((Binary.ratio m e).1 * 10 ^ places) (Binary.ratio m e).2 = digits
  have hvalue : (digits : Int) = nearest (m * (2 : ℚ) ^ e * 10 ^ places) := by
    rw [← hdigits, roundHalfEven_eq_nearest _ hden, ← Binary.ratio_div, div_mul_eq_mul_div]
    push_cast
    rfl
  have hresult : x.roundPlaces places =
      if negative then -(Float.ofScientific digits true places) else Float.ofScientific digits true places := by
    unfold roundPlaces
    rw [hreading, ← hdigits]
    rfl
  have hplace : Double.place (Float.ofScientific digits true places) = some (spot (digits / 10 ^ places)) :=
    place_ofScientific digits true hplaces
  have hcast : ((nearest (m * (2 : ℚ) ^ e * 10 ^ places) : Int) : ℚ) = digits := by
    rw [← hvalue]
    rfl
  rw [hresult, hcast]
  cases negative with
  | false => exact hplace
  | true =>
    obtain rfl := hnegative rfl
    obtain rfl : digits = 0 := by
      have hzero : ((0 : Nat) : ℚ) * (2 : ℚ) ^ e * 10 ^ places = 0 := by rw [Nat.cast_zero, zero_mul, zero_mul]
      rw [hzero] at hvalue
      exact_mod_cast hvalue.trans (nearest_int 0)
    rw [Nat.cast_zero, zero_div, spot_zero] at hplace ⊢
    exact place_neg_zero hplace

theorem nearest_nonneg {v : ℚ} (h : 0 ≤ v) : 0 ≤ nearest v :=
  (nearest_int 0).ge.trans (nearest_mono (by exact_mod_cast h))

theorem roundPlaces_bounds {k : Nat} (h : Measures x q) (hle : q ≤ k) :
    0 ≤ x.roundPlaces 2 ∧ x.roundPlaces 2 ≤ Float.ofNat k := by
  have hplace := h.place_roundPlaces (show 2 ≤ 2 ^ 11 by decide)
  have hnonneg : 0 ≤ nearest (q * 10 ^ 2) := nearest_nonneg (mul_nonneg h.nonneg (by norm_num))
  have hbound : nearest (q * 10 ^ 2) ≤ (k * 10 ^ 2 : Int) := by
    rw [← nearest_int (k * 10 ^ 2)]
    refine nearest_mono ?_
    push_cast
    linarith
  have hnonneg' : (0 : ℚ) ≤ nearest (q * 10 ^ 2) / 10 ^ 2 := div_nonneg (by exact_mod_cast hnonneg) (by norm_num)
  refine ⟨zero_le_of_spot hplace hnonneg', le_of_spot hplace (place_ofNat k) hnonneg' ?_⟩
  rw [div_le_iff₀ (by norm_num)]
  exact_mod_cast hbound

theorem roundPlaces_mono (hp : Measures x p) (hq : Measures y q) (h : x ≤ y) {places : Nat} (hplaces : places ≤ 2 ^ 11) :
    x.roundPlaces places ≤ y.roundPlaces places := by
  have hle : p ≤ q := (hp.le_iff hq).mp h
  have hnearest : nearest (p * 10 ^ places) ≤ nearest (q * 10 ^ places) := nearest_mono (by gcongr)
  have hnonneg : 0 ≤ nearest (p * 10 ^ places) := nearest_nonneg (mul_nonneg hp.nonneg (by positivity))
  refine le_of_spot (hp.place_roundPlaces hplaces) (hq.place_roundPlaces hplaces) ?_ ?_
  · exact div_nonneg (by exact_mod_cast hnonneg) (by positivity)
  · have hcast : ((nearest (p * 10 ^ places) : Int) : ℚ) ≤ nearest (q * 10 ^ places) := by exact_mod_cast hnearest
    gcongr

end Double

end WalletRouting
