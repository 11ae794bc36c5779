import WalletRouting.Proofs.Number.Exact
import WalletRouting.Proofs.Number.Places

/-! # Doubles of either sign

What is rounded below zero is rounded as its opposite is, and its place is the opposite one. So every double is in the
place of its exact value, and the order of doubles is that of their values; a sum or a product with a finite double is
rounded from the exact one.
-/
namespace WalletRouting
set_option autoImplicit false

namespace Double

open Float.Model (Format UnpackedFloat)
open Float.Model.UnpackedFloat

/-! ## Opposites -/

def opposite (p : Int × Int × Int) : Int × Int × Int := (-p.1, -p.2.1, -p.2.2)

theorem opposite_opposite (p : Int × Int × Int) : opposite (opposite p) = p := by
  unfold opposite
  exact Prod.ext (neg_neg _) (Prod.ext (neg_neg _) (neg_neg _))

theorem precedes_opposite {p q : Int × Int × Int} : Precedes (opposite p) (opposite q) ↔ Precedes q p := by
  unfold Precedes opposite
  dsimp only
  omega

theorem placeOf_neg (u : UnpackedFloat) : placeOf u.neg = (placeOf u).map opposite := by
  rcases u with (_ | _) | _ | s | ⟨_ | _, m, e, hm⟩
  case finite.negative => exact congrArg some (opposite_opposite (1, e, (m : Int))).symm
  all_goals rfl

theorem assemble_neg (s : Sign) (e : BitVec 11) (m : BitVec 52) : assemble (-s) e m = (assemble s e m).neg := by
  unfold assemble
  split_ifs <;> rfl

theorem unpack_pack_neg (u : UnpackedFloat) :
    unpack Format.binary64 (pack Format.binary64 u.neg) = (unpack Format.binary64 (pack Format.binary64 u)).neg := by
  cases u with
  | notANumber => rfl
  | infinity s => cases s <;> rfl
  | zero s => cases s <;> rfl
  | finite s m e hm =>
    have hneg : neg (.finite s m e hm) = .finite (-s) m e hm := rfl
    rw [hneg, pack_finite, pack_finite]
    split_ifs
    · cases s <;> rfl
    · rw [unpack_packComponents, unpack_packComponents, assemble_neg]
    · rw [unpack_packComponents, unpack_packComponents, assemble_neg]

theorem place_pack_neg (u : UnpackedFloat) :
    place (.ofModel (.pack u.neg)) = (place (.ofModel (.pack u))).map opposite :=
  (congrArg placeOf (unpack_pack_neg u)).trans (placeOf_neg _)

theorem roundWithAccuracy_neg (s : Sign) (m : Nat) (e : Int) (acc : Accuracy) :
    roundWithAccuracy Format.binary64 (-s) m e acc = (roundWithAccuracy Format.binary64 s m e acc).neg := by
  unfold roundWithAccuracy
  dsimp only
  split <;> rfl

theorem round_neg (s : Sign) (m : Nat) (e : Int) :
    UnpackedFloat.round Format.binary64 (-s) m e = (UnpackedFloat.round Format.binary64 s m e).neg :=
  roundWithAccuracy_neg _ _ _ _

protected theorem mul_neg (u v : UnpackedFloat) : mul Format.binary64 u.neg v = (mul Format.binary64 u v).neg := by
  have hsign (s t : Sign) : -s * t = -(s * t) := by cases s <;> cases t <;> rfl
  cases u <;> cases v <;> simp only [neg, mul, hsign, roundWithAccuracy_neg]

/-! ## Places of values -/

/-- The place of the double nearest to a number. -/
def signedSpot (q : ℚ) : Int × Int × Int := if 0 ≤ q then spot q else opposite (spot (-q))

theorem signedSpot_of_nonneg {q : ℚ} (h : 0 ≤ q) : signedSpot q = spot q := if_pos h

theorem signedSpot_zero : signedSpot 0 = (0, 0, 0) := by rw [signedSpot_of_nonneg le_rfl, spot_zero]

theorem signedSpot_neg {q : ℚ} (h : 0 ≤ q) : signedSpot (-q) = opposite (spot q) := by
  rcases h.eq_or_lt with rfl | hpos
  · rw [neg_zero, signedSpot_zero, spot_zero]
    rfl
  · rw [signedSpot, if_neg (by linarith), neg_neg]

theorem signedSpot_mono {p q : ℚ} (h : p ≤ q) : ¬Precedes (signedSpot q) (signedSpot p) := by
  have hbelow {r : ℚ} (hr : r ≤ 0) : ¬Precedes (spot 0) (signedSpot r) := by
    have hzero : spot 0 = opposite (spot 0) := by
      rw [spot_zero]
      rfl
    rw [← neg_neg r, signedSpot_neg (neg_nonneg.mpr hr), hzero, precedes_opposite]
    exact spot_mono le_rfl (neg_nonneg.mpr hr)
  rcases le_total 0 p with hp | hp
  · rw [signedSpot_of_nonneg hp, signedSpot_of_nonneg (hp.trans h)]
    exact spot_mono hp h
  · rcases le_total 0 q with hq | hq
    · rw [signedSpot_of_nonneg hq]
      exact not_precedes_trans (hbelow hp) (spot_mono le_rfl hq)
    · rw [← neg_neg p, ← neg_neg q, signedSpot_neg (neg_nonneg.mpr hp), signedSpot_neg (neg_nonneg.mpr hq),
        precedes_opposite]
      exact spot_mono (neg_nonneg.mpr hq) (neg_le_neg h)

theorem signedSpot_bounds (q : ℚ) :
    ¬Precedes (signedSpot q) (-2, 0, 0) ∧ ¬Precedes (2, 0, 0) (signedSpot q) := by
  unfold signedSpot spot spotAt opposite Precedes
  split_ifs <;> dsimp only <;> omega

/-- The place of the double nearest to a value. -/
def spotOf : Extended → Int × Int × Int
  | ⊥ => (-2, 0, 0)
  | (⊤ : WithTop ℚ) => (2, 0, 0)
  | ((q : ℚ) : WithTop ℚ) => signedSpot q

theorem spotOf_ofRat (q : ℚ) : spotOf (.ofRat q) = signedSpot q := rfl

theorem spotOf_mono : ∀ {v w : Extended}, v ≤ w → ¬Precedes (spotOf w) (spotOf v)
  | ⊥, ⊥, _ => not_precedes_self _
  | ⊥, (⊤ : WithTop ℚ), _ => by
    unfold spotOf Precedes
    decide
  | ⊥, ((q : ℚ) : WithTop ℚ), _ => (signedSpot_bounds q).1
  | (⊤ : WithTop ℚ), (⊤ : WithTop ℚ), _ => not_precedes_self _
  | ((p : ℚ) : WithTop ℚ), (⊤ : WithTop ℚ), _ => (signedSpot_bounds p).2
  | ((p : ℚ) : WithTop ℚ), ((q : ℚ) : WithTop ℚ), h =>
    signedSpot_mono (WithTop.coe_le_coe.mp (WithBot.coe_le_coe.mp h))

/-- What a double with a value is. -/
inductive Valued : UnpackedFloat → Extended → Prop
  | below : Valued (.infinity .negative) ⊥
  | above : Valued (.infinity .positive) ⊤
  | zero (s : Sign) : Valued (.zero s) (.ofRat 0)
  | finite (s : Sign) (m : Nat) (e : Int) (hm : 0 < m) (h : Canonical m e) (he : e ≤ 971) :
    Valued (.finite s m e hm) (.ofRat (s.apply m * (2 : ℚ) ^ e))

variable {x y : Double} {v w : Extended} {q : ℚ}

theorem valued (h : x.exactValue = some v) : Valued x.toModel.unpack v := by
  unfold exactValue at h
  cases hx : x.toModel.unpack with
  | notANumber =>
    rw [hx] at h
    cases h
  | infinity s =>
    rw [hx] at h
    cases s <;> cases h
    · exact .below
    · exact .above
  | zero s =>
    rw [hx] at h
    cases h
    exact .zero s
  | finite s m e hm =>
    rw [hx] at h
    cases h
    obtain ⟨hcanonical, he⟩ := canonical_unpack hx
    exact .finite s m e hm hcanonical he

theorem valued_ofRat (h : x.exactValue = some (.ofRat q)) :
    (∃ s, x.toModel.unpack = .zero s ∧ q = 0) ∨
      ∃ s m e, ∃ hm : 0 < m, x.toModel.unpack = .finite s m e hm ∧ Canonical m e ∧ e ≤ 971 ∧
        q = s.apply m * (2 : ℚ) ^ e := by
  have hvalued := valued h
  generalize x.toModel.unpack = u at hvalued
  generalize hv : Extended.ofRat q = v at hvalued
  cases hvalued with
  | below => exact absurd hv (Extended.bot_lt_ofRat q).ne'
  | above => exact absurd hv (Extended.ofRat_lt_top q).ne
  | zero s => exact Or.inl ⟨s, rfl, Extended.ofRat_inj hv⟩
  | finite s m e hm hcanonical he => exact Or.inr ⟨s, m, e, hm, rfl, hcanonical, he, Extended.ofRat_inj hv⟩

theorem placeOf_canonical {m : Nat} {e : Int} (h : Canonical m e) (he : e ≤ 971) (s : Sign) (hm : 0 < m) :
    placeOf (.finite s m e hm) = some (signedSpot (s.apply m * (2 : ℚ) ^ e)) := by
  have hnonneg : 0 ≤ (m : ℚ) * (2 : ℚ) ^ e := by positivity
  have hspot : spot (m * (2 : ℚ) ^ e) = (1, e, (m : Int)) := by rw [h.spot hm, if_neg (by omega)]
  cases s with
  | positive =>
    have happly : (Sign.positive.apply m : ℚ) * (2 : ℚ) ^ e = m * (2 : ℚ) ^ e := by simp [Sign.apply]
    rw [happly, signedSpot_of_nonneg hnonneg, hspot]
    rfl
  | negative =>
    have happly : (Sign.negative.apply m : ℚ) * (2 : ℚ) ^ e = -(m * (2 : ℚ) ^ e) := by simp [Sign.apply]
    rw [happly, signedSpot_neg hnonneg, hspot]
    rfl

theorem place_of_exactValue (h : x.exactValue = some v) : place x = some (spotOf v) := by
  have hvalued := valued h
  unfold place
  generalize x.toModel.unpack = u at hvalued
  cases hvalued with
  | below | above => rfl
  | zero s =>
    rw [spotOf_ofRat, signedSpot_zero]
    rfl
  | finite s m e hm hcanonical he => exact placeOf_canonical hcanonical he s hm

theorem exists_exactValue_of_place {p : Int × Int × Int} (h : place x = some p) :
    ∃ v, x.exactValue = some v ∧ spotOf v = p := by
  cases hx : x.exactValue with
  | some v => exact ⟨v, rfl, Option.some.inj ((place_of_exactValue hx).symm.trans h)⟩
  | none =>
    unfold exactValue at hx
    unfold place at h
    rcases hunpack : x.toModel.unpack with (_ | _) | _ | s | ⟨s, m, e, hm⟩ <;> rw [hunpack] at hx h
    case notANumber => cases h
    all_goals cases hx

theorem exactValue_of_place (h : place x = place y) : x.exactValue = y.exactValue := by
  unfold exactValue
  rcases eq_or_zero_of_placeOf h with hsame | ⟨s, s', hx, hy⟩
  · rw [hsame]
  · rw [hx, hy]
    rfl

theorem le_iff_exactValue : x ≤ y ↔ ∃ v w, x.exactValue = some v ∧ y.exactValue = some w ∧ v ≤ w := by
  rw [le_iff]
  constructor
  · rintro ⟨p, q, hx, hy, hnot⟩
    obtain ⟨v, hv, rfl⟩ := exists_exactValue_of_place hx
    obtain ⟨w, hw, rfl⟩ := exists_exactValue_of_place hy
    refine ⟨v, w, hv, hw, ?_⟩
    by_contra hlt
    have hback := spotOf_mono (le_of_not_ge hlt)
    have hplace : place x = place y := by rw [hx, hy, eq_of_not_precedes hback hnot]
    have hsame := exactValue_of_place hplace
    rw [hv, hw, Option.some_inj] at hsame
    exact hlt hsame.le
  · rintro ⟨v, w, hv, hw, hle⟩
    exact ⟨_, _, place_of_exactValue hv, place_of_exactValue hw, spotOf_mono hle⟩

theorem isNaN_of_le (h : x ≤ y) : y.isNaN = false := by
  obtain ⟨-, w, -, hw, -⟩ := le_iff_exactValue.mp h
  rw [← Bool.not_eq_true]
  intro hnan
  cases ((Number.exactValue_eq_none_iff (.float y)).mpr hnan).symm.trans hw

/-! ## Arithmetic -/

theorem le_of_spotOf (hx : place x = some (spotOf v)) (hy : place y = some (spotOf w)) (h : v ≤ w) : x ≤ y :=
  le_iff.mpr ⟨_, _, hx, hy, spotOf_mono h⟩

theorem place_normalize_int (n : Int) (e : Int) :
    place (.ofModel (.pack (UnpackedFloat.normalize Format.binary64 n e .positive))) =
      some (signedSpot (n * (2 : ℚ) ^ e)) := by
  rcases Int.eq_nat_or_neg n with ⟨k, rfl | rfl⟩
  · rw [Int.cast_natCast, signedSpot_of_nonneg (by positivity)]
    exact place_normalize k e
  · have hvalue : ((-(k : Int) : Int) : ℚ) * (2 : ℚ) ^ e = -(k * (2 : ℚ) ^ e) := by
      push_cast
      ring
    rw [hvalue, signedSpot_neg (by positivity)]
    rcases Nat.eq_zero_or_pos k with rfl | hk
    · have hzero : ((0 : Nat) : ℚ) * (2 : ℚ) ^ e = 0 := by rw [Nat.cast_zero, zero_mul]
      rw [hzero, spot_zero]
      exact place_pack_zero .positive
    · have hcompare : compare (-(k : Int)) 0 = .lt := Int.compare_eq_lt.mpr (by omega)
      have hround : UnpackedFloat.normalize Format.binary64 (-(k : Int)) e .positive =
          (UnpackedFloat.round Format.binary64 .positive k e).neg := by
        rw [← round_neg]
        unfold UnpackedFloat.normalize
        rw [hcompare, neg_neg]
        rfl
      rw [hround, place_pack_neg, place_round hk e]
      rfl

theorem place_pack_canonical {m : Nat} {e : Int} (h : Canonical m e) (he : e ≤ 971) (s : Sign) (hm : 0 < m) :
    place (.ofModel (.pack (.finite s m e hm))) = some (signedSpot (s.apply m * (2 : ℚ) ^ e)) := by
  rw [← placeOf_canonical h he s hm]
  refine congrArg placeOf ((unpack_pack_finite h s hm).trans ?_)
  rw [if_neg (by omega)]

theorem apply_shiftLeft (s : Sign) (m : Nat) {d e : Int} (h : d ≤ e) :
    (s.apply (m <<< (e - d).toNat : Nat) : ℚ) * (2 : ℚ) ^ d = s.apply m * (2 : ℚ) ^ e := by
  have hshift := shiftLeft_mul_zpow m h
  cases s with
  | positive => exact_mod_cast hshift
  | negative => simp only [Sign.apply, Int.cast_neg, Int.cast_natCast, neg_mul, hshift]

theorem place_add_finite {s t : Sign} {m n : Nat} {d e : Int} (hm : 0 < m) (hn : 0 < n) :
    place (.ofModel (.pack (add Format.binary64 (.finite s m d hm) (.finite t n e hn)))) =
      some (signedSpot (s.apply m * (2 : ℚ) ^ d + t.apply n * (2 : ℚ) ^ e)) := by
  rw [← apply_shiftLeft s m (min_le_left d e), ← apply_shiftLeft t n (min_le_right d e), ← add_mul,
    ← Int.cast_add]
  exact place_normalize_int _ _

protected theorem add_comm (x y : Double) : x + y = y + x := by
  rw [add_eq_pack, add_eq_pack]
  congr 2
  rcases x.toModel.unpack with s | _ | s | ⟨s, m, d, hm⟩ <;> rcases y.toModel.unpack with t | _ | t | ⟨t, n, e, hn⟩
  case finite.finite => simp only [add, min_comm d e, Int.add_comm (s.apply _)]
  case infinity.infinity => cases s <;> cases t <;> rfl
  case zero.zero => cases s <;> cases t <;> rfl
  all_goals rfl

theorem add_infinity (s : Sign) (u : UnpackedFloat) :
    add Format.binary64 (.infinity s) u = .notANumber ∨ add Format.binary64 (.infinity s) u = .infinity s := by
  cases u with
  | infinity t => cases s <;> cases t <;> first | exact Or.inl rfl | exact Or.inr rfl
  | notANumber => exact Or.inl rfl
  | zero t | finite t m e hm => exact Or.inr rfl

/-- A sum with a finite double is rounded from the exact one. -/
theorem place_add (hx : x.exactValue = some v) (hy : y.exactValue = some (.ofRat q)) :
    place (x + y) = some (spotOf (v.map (· + q))) := by
  have hleft := valued hx
  rw [add_eq_pack]
  generalize x.toModel.unpack = a at hleft
  rcases valued_ofRat hy with ⟨t, hunpack, rfl⟩ | ⟨t, n, e, hn, hunpack, hcanonical, he, rfl⟩
  · rw [hunpack]
    cases hleft with
    | below => exact congrArg placeOf (unpack_pack_infinity .negative)
    | above => exact congrArg placeOf (unpack_pack_infinity .positive)
    | zero s =>
      rw [Extended.map_ofRat, spotOf_ofRat, add_zero, signedSpot_zero]
      cases s <;> cases t <;> exact place_pack_zero _
    | finite s m d hm hcanonical hd =>
      rw [Extended.map_ofRat, spotOf_ofRat, add_zero]
      exact place_pack_canonical hcanonical hd s hm
  · rw [hunpack]
    cases hleft with
    | below => exact congrArg placeOf (unpack_pack_infinity .negative)
    | above => exact congrArg placeOf (unpack_pack_infinity .positive)
    | zero s =>
      rw [Extended.map_ofRat, spotOf_ofRat, zero_add]
      exact place_pack_canonical hcanonical he t hn
    | finite s m d hm _ _ =>
      rw [Extended.map_ofRat, spotOf_ofRat]
      exact place_add_finite hm hn

theorem place_pack_signed (r : Sign → UnpackedFloat) (v : Sign → ℚ) (hneg : r .negative = (r .positive).neg)
    (hvalue : v .negative = -v .positive) (hnonneg : 0 ≤ v .positive)
    (hpositive : place (.ofModel (.pack (r .positive))) = some (spot (v .positive))) (s : Sign) :
    place (.ofModel (.pack (r s))) = some (signedSpot (v s)) := by
  cases s with
  | positive => exact hpositive.trans (congrArg some (signedSpot_of_nonneg hnonneg).symm)
  | negative =>
    rw [hneg, place_pack_neg, hpositive, hvalue, signedSpot_neg hnonneg]
    rfl

theorem place_mul_signed {m n : Nat} {d e : Int} (hm : 0 < m) (hn : 0 < n) (s : Sign)
    (hroom : 2 ^ 52 ≤ m ∨ 2 ^ 52 ≤ n ∨ d + e ≤ -1074) :
    place (.ofModel (.pack (mul Format.binary64 (.finite s m d hm) (.finite .positive n e hn)))) =
      some (signedSpot (s.apply m * (2 : ℚ) ^ d * (n * (2 : ℚ) ^ e))) := by
  refine place_pack_signed (fun s => mul Format.binary64 (.finite s m d hm) (.finite .positive n e hn))
    (fun s => s.apply m * (2 : ℚ) ^ d * (n * (2 : ℚ) ^ e)) ?_ ?_ ?_ (place_mul_finite hm hn hroom) s
  · exact Double.mul_neg (.finite .positive m d hm) (.finite .positive n e hn)
  · simp [Sign.apply]
  · simp only [Sign.apply]
    positivity

theorem place_mul (hx : x.exactValue = some v) (hy : Measures y q) (hq : 0 < q) :
    place (x * y) = some (spotOf (v.map (· * q))) := by
  have hleft := valued hx
  rw [mul_eq_pack]
  generalize x.toModel.unpack = a at hleft
  rcases hy.cases with ⟨t, -, rfl⟩ | ⟨n, e, hn, hunpack, rfl⟩
  · exact absurd hq (lt_irrefl 0)
  · have hfull := (canonical_unpack hunpack).1.full
    rw [hunpack]
    cases hleft with
    | below => exact congrArg placeOf (unpack_pack_infinity .negative)
    | above => exact congrArg placeOf (unpack_pack_infinity .positive)
    | zero s =>
      rw [Extended.map_ofRat, spotOf_ofRat, zero_mul, signedSpot_zero]
      exact place_pack_zero _
    | finite s m d hm hcanonical _ =>
      have hfull' := hcanonical.full
      rw [Extended.map_ofRat, spotOf_ofRat]
      exact place_mul_signed hm hn s (by omega)

theorem exactValue_of_measures (h : Measures x q) : x.exactValue = some (.ofRat q) := by
  unfold exactValue
  rcases h.cases with ⟨s, hx, rfl⟩ | ⟨m, e, hm, hx, rfl⟩ <;> rw [hx] <;> rfl

protected theorem add_le_add_right (h : x ≤ y) {z : Double} (hz : z.exactValue = some (.ofRat q)) : x + z ≤ y + z := by
  obtain ⟨v, w, hx, hy, hle⟩ := le_iff_exactValue.mp h
  exact le_of_spotOf (place_add hx hz) (place_add hy hz) (Extended.map_mono (fun _ _ h => by gcongr) hle)

protected theorem mul_le_mul_right (h : x ≤ y) {z : Double} (hz : Measures z q) (hq : 0 < q) : x * z ≤ y * z := by
  obtain ⟨v, w, hx, hy, hle⟩ := le_iff_exactValue.mp h
  exact le_of_spotOf (place_mul hx hz hq) (place_mul hy hz hq)
    (Extended.map_mono (fun _ _ h => mul_le_mul_of_nonneg_right h hq.le) hle)

/-! ## Without a place -/

theorem place_pack_notANumber : place (.ofModel (.pack .notANumber)) = none := congrArg placeOf unpack_pack_notANumber

theorem place_add_of_none (h : place x = none) (y : Double) : place (x + y) = none := by
  rw [add_eq_pack, eq_notANumber h]
  exact place_pack_notANumber

theorem place_mul_of_none (h : place x = none) (y : Double) : place (x * y) = none := by
  rw [mul_eq_pack, eq_notANumber h]
  exact place_pack_notANumber

theorem not_lt_of_none (h : place x = none) (y : Double) : ¬x < y := by
  rw [lt_iff, h]
  rintro ⟨p, q, hp, -⟩
  cases hp

theorem Infinite.not_add_lt (h : Infinite y) (x z : Double) : ¬x + y < z := by
  rw [Double.add_comm, add_eq_pack, h]
  rcases add_infinity .positive x.toModel.unpack with hsum | hsum
  · rw [hsum]
    exact not_lt_of_none place_pack_notANumber z
  · rw [hsum, lt_iff, infinite_pack.place]
    rintro ⟨p, q, hp, hz, hprecedes⟩
    obtain rfl := Option.some.inj hp
    obtain ⟨v, -, rfl⟩ := exists_exactValue_of_place hz
    exact spotOf_mono (le_top : v ≤ ⊤) hprecedes

end Double

end WalletRouting
