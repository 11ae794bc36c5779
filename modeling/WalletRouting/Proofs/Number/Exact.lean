import Mathlib.Data.Rat.Cast.Order
import Mathlib.Order.WithBot
import WalletRouting.Number.Basic
import WalletRouting.Proofs.Number.Packing
import WalletRouting.Proofs.Number.Shortest

/-! # Exact values

An integer is a rational, and so is a finite double; the two infinities lie below and above all of them, and what is not a
number has no value. Numbers are compared by nothing but their values, whichever of the two forms they have.
-/
namespace WalletRouting
set_option autoImplicit false

/-- The rationals, with something below and something above all of them. -/
abbrev Extended := WithBot (WithTop ℚ)

def Extended.ofRat (q : ℚ) : Extended := ((q : WithTop ℚ) : Extended)

theorem Extended.ofRat_lt_ofRat {p q : ℚ} : ofRat p < ofRat q ↔ p < q := by
  unfold ofRat
  rw [WithBot.coe_lt_coe, WithTop.coe_lt_coe]

theorem Extended.ofRat_inj {p q : ℚ} (h : ofRat p = ofRat q) : p = q := WithTop.coe_inj.mp (WithBot.coe_inj.mp h)

theorem Extended.ofRat_lt_top (q : ℚ) : ofRat q < ⊤ := WithBot.coe_lt_coe.mpr (WithTop.coe_lt_top q)

theorem Extended.bot_lt_ofRat (q : ℚ) : ⊥ < ofRat q := WithBot.bot_lt_coe _

/-- What becomes of a value when rationals become others and the infinities stay. -/
def Extended.map (f : ℚ → ℚ) : Extended → Extended := WithBot.map (WithTop.map f)

@[simp] theorem Extended.map_ofRat (f : ℚ → ℚ) (q : ℚ) : (ofRat q).map f = ofRat (f q) := rfl

theorem Extended.map_mono {f : ℚ → ℚ} (hf : Monotone f) : Monotone (map f) := hf.withTop_map.withBot_map

theorem compare_congr {α β : Type} [LinearOrder α] [LinearOrder β] {a b : α} {c d : β} (h : a < b ↔ c < d)
    (h' : b < a ↔ d < c) : compare a b = compare c d := by
  rcases lt_trichotomy a b with hlt | heq | hgt
  · rw [compare_lt_iff_lt.mpr hlt, compare_lt_iff_lt.mpr (h.mp hlt)]
  · have heq' : c = d := le_antisymm (not_lt.mp fun hlt => heq.not_gt (h'.mpr hlt))
      (not_lt.mp fun hlt => heq.not_lt (h.mpr hlt))
    rw [compare_eq_iff_eq.mpr heq, compare_eq_iff_eq.mpr heq']
  · rw [compare_gt_iff_gt.mpr hgt, compare_gt_iff_gt.mpr (h'.mp hgt)]

namespace Double

open Float.Model (UnpackedFloat)

/-- The value of a number as it is unpacked. -/
def valueOf : UnpackedFloat → Option Extended
  | .notANumber => none
  | .infinity .negative => some ⊥
  | .infinity .positive => some ⊤
  | .zero _ => some (.ofRat 0)
  | .finite s m e _ => some (.ofRat (s.apply m * (2 : ℚ) ^ e))

def exactValue (x : Double) : Option Extended := valueOf x.toModel.unpack

end Double

namespace Number

def exactValue : Number → Option Extended
  | .int n => some (.ofRat n)
  | .float x => x.exactValue

def isNaN : Number → Bool
  | .int _ => false
  | .float x => x.isNaN

end Number

namespace Binary

def exactValue : Binary → Option Extended
  | .nan => none
  | .infinite true => some ⊥
  | .infinite false => some ⊤
  | .finite negative m e => some (.ofRat (signed negative m * (2 : ℚ) ^ e))

theorem signed_ratio (negative : Bool) (m : Nat) (e : Int) :
    (signed negative (ratio m e).1 : ℚ) = signed negative m * (2 : ℚ) ^ e * (ratio m e).2 := by
  have hnum := ratio_num m e
  cases negative <;> simp [signed, hnum]

theorem compare_ratio (s t : Bool) (m n : Nat) (d e : Int) :
    compare (signed s (ratio m d).1 * Int.ofNat (ratio n e).2) (signed t (ratio n e).1 * Int.ofNat (ratio m d).2) =
      compare ((signed s m : ℚ) * (2 : ℚ) ^ d) ((signed t n : ℚ) * (2 : ℚ) ^ e) := by
  have hleft : ((signed s (ratio m d).1 * Int.ofNat (ratio n e).2 : Int) : ℚ) =
      signed s m * (2 : ℚ) ^ d * ((ratio m d).2 * (ratio n e).2) := by
    rw [Int.cast_mul, signed_ratio, mul_assoc]
    rfl
  have hright : ((signed t (ratio n e).1 * Int.ofNat (ratio m d).2 : Int) : ℚ) =
      signed t n * (2 : ℚ) ^ e * ((ratio m d).2 * (ratio n e).2) := by
    rw [Int.cast_mul, signed_ratio, mul_assoc, mul_comm ((ratio m d).2 : ℚ)]
    rfl
  have hpos : (0 : ℚ) < (ratio m d).2 * (ratio n e).2 := by
    exact_mod_cast Nat.mul_pos (ratio_den_pos m d) (ratio_den_pos n e)
  apply compare_congr
  · rw [← Int.cast_lt (R := ℚ), hleft, hright, mul_lt_mul_iff_left₀ hpos]
  · rw [← Int.cast_lt (R := ℚ), hleft, hright, mul_lt_mul_iff_left₀ hpos]

theorem compare?_of_exactValue {a b : Binary} {v w : Extended} (ha : a.exactValue = some v)
    (hb : b.exactValue = some w) : a.compare? b = some (compare v w) := by
  cases a with
  | nan => cases ha
  | infinite s =>
    cases b with
    | nan => cases hb
    | infinite t => cases s <;> cases t <;> cases ha <;> cases hb <;> rfl
    | finite t n e =>
      cases hb
      cases s <;> cases ha
      · exact congrArg some (compare_gt_iff_gt.mpr (Extended.ofRat_lt_top _)).symm
      · exact congrArg some (compare_lt_iff_lt.mpr (Extended.bot_lt_ofRat _)).symm
  | finite s m d =>
    cases ha
    cases b with
    | nan => cases hb
    | infinite t =>
      cases t <;> cases hb
      · exact congrArg some (compare_lt_iff_lt.mpr (Extended.ofRat_lt_top _)).symm
      · exact congrArg some (compare_gt_iff_gt.mpr (Extended.bot_lt_ofRat _)).symm
    | finite t n e =>
      cases hb
      refine congrArg some ((compare_ratio s t m n d e).trans ?_)
      exact (compare_congr Extended.ofRat_lt_ofRat Extended.ofRat_lt_ofRat).symm

theorem compare?_of_exactValue_eq_none {a b : Binary} (h : a.exactValue = none ∨ b.exactValue = none) :
    a.compare? b = none := by
  rcases a with _ | (_ | _) | _ <;> rcases b with _ | (_ | _) | _ <;> first | rfl | (rcases h with h | h <;> cases h)

end Binary

namespace Double

open Float.Model (UnpackedFloat)

theorem signed_isNegative (s : UnpackedFloat.Sign) (m : Nat) : Binary.signed (isNegative s) m = s.apply m := by
  cases s <;> rfl

theorem exactValue_readingOf (u : UnpackedFloat) : (readingOf u).exactValue = valueOf u := by
  cases u with
  | notANumber => rfl
  | infinity s => cases s <;> rfl
  | zero s =>
    have hzero : (s.apply 0 : ℚ) * (2 : ℚ) ^ (-1074 : Int) = 0 := by cases s <;> simp [UnpackedFloat.Sign.apply]
    simp only [readingOf, Binary.exactValue, valueOf, signed_isNegative, Nat.cast_zero, hzero]
  | finite s m e hm => simp only [readingOf, Binary.exactValue, valueOf, signed_isNegative]

end Double

namespace Number

theorem exactValue_eq_none_iff (a : Number) : a.exactValue = none ↔ a.isNaN = true := by
  cases a with
  | int n => simp [exactValue, isNaN]
  | float x =>
    have hmodel : x.isNaN = x.toModel.unpack.isNaN := rfl
    simp only [exactValue, isNaN, Double.exactValue, hmodel]
    cases x.toModel.unpack with
    | infinity s => cases s <;> simp [Double.valueOf, Float.Model.UnpackedFloat.isNaN]
    | _ => simp [Double.valueOf, Float.Model.UnpackedFloat.isNaN]

theorem exists_exactValue {a : Number} (h : a.isNaN = false) : ∃ v, a.exactValue = some v := by
  apply Option.ne_none_iff_exists'.mp
  rw [Ne, exactValue_eq_none_iff, h]
  exact Bool.false_ne_true

theorem exactValue_reading (a : Number) : a.reading.exactValue = a.exactValue := by
  cases a with
  | int n =>
    simp only [reading, Binary.ofInt, Binary.exactValue, exactValue, Binary.signed_natAbs, zpow_zero, mul_one]
  | float x => exact (congrArg Binary.exactValue (Double.ofFloat_eq x)).trans (Double.exactValue_readingOf _)

variable {a b : Number} {v w : Extended}

theorem compare?_of_exactValue (ha : a.exactValue = some v) (hb : b.exactValue = some w) :
    a.compare? b = some (compare v w) :=
  Binary.compare?_of_exactValue ((exactValue_reading a).trans ha) ((exactValue_reading b).trans hb)

theorem compare?_of_exactValue_eq_none (h : a.exactValue = none ∨ b.exactValue = none) : a.compare? b = none :=
  Binary.compare?_of_exactValue_eq_none (by rwa [exactValue_reading, exactValue_reading])

theorem exactValue_of_compare? {o : Ordering} (h : a.compare? b = some o) :
    ∃ v w, a.exactValue = some v ∧ b.exactValue = some w ∧ compare v w = o := by
  cases ha : a.exactValue with
  | none => cases (compare?_of_exactValue_eq_none (Or.inl ha)).symm.trans h
  | some v =>
    cases hb : b.exactValue with
    | none => cases (compare?_of_exactValue_eq_none (Or.inr hb)).symm.trans h
    | some w => exact ⟨v, w, rfl, rfl, Option.some.inj ((compare?_of_exactValue ha hb).symm.trans h)⟩

end Number

end WalletRouting
