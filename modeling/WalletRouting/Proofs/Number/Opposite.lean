import WalletRouting.Proofs.Number.Reading
import WalletRouting.Proofs.Number.Signed

/-! # Opposites of doubles

The opposite of a double differs from it in the sign and in nothing else. A difference is the sum with an opposite, and
the difference the other way around is its opposite, unless both are zero. Rounding to decimal places keeps opposites.
-/
namespace WalletRouting
set_option autoImplicit false

namespace Double

open Float.Model (Format UnpackedFloat)
open Float.Model.UnpackedFloat

variable {x y z : Double} {q : ℚ}

theorem unpack_pack_unpack (x : Double) :
    unpack Format.binary64 (pack Format.binary64 x.toModel.unpack) = x.toModel.unpack := by
  cases hx : x.toModel.unpack with
  | notANumber => exact unpack_pack_notANumber
  | infinity s => exact unpack_pack_infinity s
  | zero s => exact unpack_pack_zero s
  | finite s m e hm =>
    obtain ⟨hcanonical, hlargest⟩ := canonical_unpack hx
    rw [unpack_pack_finite hcanonical, if_neg (by omega)]

theorem unpack_neg (x : Double) : (-x).toModel.unpack = x.toModel.unpack.neg := by
  refine (unpack_pack_neg x.toModel.unpack).trans ?_
  rw [unpack_pack_unpack]

theorem eq_of_unpack (h : x.toModel.unpack = y.toModel.unpack) : x = y :=
  ofFloat_injective (by rw [ofFloat_eq, ofFloat_eq, h])

theorem neg_neg_sign (s : Sign) : - -s = s := by cases s <;> rfl

protected theorem neg_neg (x : Double) : - -x = x := by
  apply eq_of_unpack
  rw [unpack_neg, unpack_neg]
  cases x.toModel.unpack <;> simp only [neg, neg_neg_sign]

theorem place_neg (x : Double) : place (-x) = (place x).map opposite := by
  unfold place
  rw [unpack_neg, placeOf_neg]

theorem neg_lt_neg : -x < -y ↔ y < x := by
  rw [lt_iff, lt_iff, place_neg, place_neg]
  constructor
  · rintro ⟨p, q, hp, hq, hprecedes⟩
    obtain ⟨p, hx, rfl⟩ := Option.map_eq_some_iff.mp hp
    obtain ⟨q, hy, rfl⟩ := Option.map_eq_some_iff.mp hq
    exact ⟨q, p, hy, hx, precedes_opposite.mp hprecedes⟩
  · rintro ⟨q, p, hy, hx, hprecedes⟩
    exact ⟨opposite p, opposite q, by rw [hx]; rfl, by rw [hy]; rfl, precedes_opposite.mpr hprecedes⟩

/-! ## Differences -/

theorem apply_neg (s : Sign) (n : Int) : (-s).apply n = -(s.apply n) := by
  cases s
  · exact (neg_neg n).symm
  · rfl

theorem sub_eq_pack (x y : Double) :
    x - y = .ofModel (.pack (sub Format.binary64 x.toModel.unpack y.toModel.unpack)) := rfl

protected theorem sub_eq_add_neg (x y : Double) : x - y = x + -y := by
  rw [sub_eq_pack, add_eq_pack, unpack_neg]
  congr 2
  cases x.toModel.unpack <;> cases y.toModel.unpack <;> simp only [sub, add, neg, apply_neg, sub_eq_add_neg]

theorem normalize_neg (n : Int) (e : Int) (h : n ≠ 0) :
    UnpackedFloat.normalize Format.binary64 (-n) e .positive =
      (UnpackedFloat.normalize Format.binary64 n e .positive).neg := by
  unfold UnpackedFloat.normalize
  rcases lt_or_gt_of_ne h with hlt | hgt
  · rw [Int.compare_eq_lt.mpr hlt, Int.compare_eq_gt.mpr (neg_pos.mpr hlt), ← round_neg]
    rfl
  · rw [Int.compare_eq_gt.mpr hgt, Int.compare_eq_lt.mpr (neg_lt_zero.mpr hgt), ← round_neg, neg_neg]
    rfl

theorem sub_swap (u v : UnpackedFloat) :
    sub Format.binary64 v u = (sub Format.binary64 u v).neg ∨
      sub Format.binary64 u v = .zero .positive ∧ sub Format.binary64 v u = .zero .positive := by
  cases u with
  | notANumber => cases v <;> exact Or.inl rfl
  | infinity s => cases v <;> cases s <;> first | exact Or.inl rfl | (next t => cases t <;> exact Or.inl rfl)
  | zero s =>
    cases v with
    | notANumber => exact Or.inl rfl
    | infinity t => cases t <;> exact Or.inl rfl
    | zero t => cases s <;> cases t <;> first | exact Or.inl rfl | exact Or.inr ⟨rfl, rfl⟩
    | finite t n e hn => cases t <;> exact Or.inl rfl
  | finite s m d hm =>
    cases v with
    | notANumber => exact Or.inl rfl
    | infinity t => cases t <;> exact Or.inl rfl
    | zero t => exact Or.inl rfl
    | finite t n e hn =>
      simp only [sub, decreaseExponent]
      rw [min_comm e d]
      generalize s.apply (m <<< (d - min d e).toNat : Nat) = a
      generalize t.apply (n <<< (e - min d e).toNat : Nat) = b
      by_cases h : a - b = 0
      · rw [h, show b - a = 0 by omega]
        exact Or.inr ⟨rfl, rfl⟩
      · left
        rw [← neg_sub, normalize_neg _ _ h]

theorem sub_eq_neg_or_zero (x y : Double) : y - x = -(x - y) ∨ place (x - y) = place 0 ∧ place (y - x) = place 0 := by
  rcases sub_swap x.toModel.unpack y.toModel.unpack with hneg | ⟨hzero, hzero'⟩
  · left
    apply eq_of_unpack
    rw [unpack_neg, sub_eq_pack, sub_eq_pack, hneg]
    exact unpack_pack_neg _
  · rw [sub_eq_pack, sub_eq_pack, hzero, hzero']
    exact Or.inr ⟨place_pack_zero _, place_pack_zero _⟩

protected theorem sub_zero (x : Double) : x - 0.0 = x := by
  apply eq_of_unpack
  have hzero : (0.0 : Double).toModel.unpack = .zero .positive := rfl
  have hsame (u : UnpackedFloat) : sub Format.binary64 u (.zero .positive) = u := by
    rcases u with s | _ | s | ⟨s, m, e, hm⟩ <;> first | rfl | (cases s <;> rfl)
  rw [sub_eq_pack, hzero, hsame]
  exact unpack_pack_unpack x

/-! ## Rounding to decimal places -/

theorem ofFloat_neg (x : Double) :
    Binary.ofFloat (-x) =
      match Binary.ofFloat x with
      | .nan => .nan
      | .infinite negative => .infinite (!negative)
      | .finite negative m e => .finite (!negative) m e := by
  rw [ofFloat_eq, ofFloat_eq, unpack_neg]
  rcases x.toModel.unpack with s | _ | s | ⟨s, m, e, hm⟩ <;> first | rfl | (cases s <;> rfl)

theorem roundPlaces_neg (places : Nat) (x : Double) : (-x).roundPlaces places = -x.roundPlaces places := by
  have hreading := ofFloat_neg x
  unfold roundPlaces
  cases hx : Binary.ofFloat x with
  | nan | infinite =>
    rw [hx] at hreading
    rw [hreading]
  | finite negative m e =>
    rw [hx] at hreading
    rw [hreading]
    cases negative with
    | false => rfl
    | true => exact (Double.neg_neg _).symm

theorem place_roundPlaces_of_zero (h : place x = place 0) {places : Nat} (hplaces : places ≤ 2 ^ 11) :
    place (x.roundPlaces places) = place 0 := by
  have hmeasures : Measures x 0 := measures_zero.of_place h
  rw [hmeasures.place_roundPlaces hplaces, zero_mul, ← Int.cast_zero (R := ℚ), nearest_int, Int.cast_zero, zero_div,
    spot_zero, place_zero]

end Double

end WalletRouting
