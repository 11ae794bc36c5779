import Mathlib
import WalletRouting.Proofs.Number.Rounding

/-! # Doubles and their bits

What is packed into 64 bits is unpacked as it was, except that a finite number beyond the largest becomes infinite. So a
double is as good as its unpacked form, and every finite one is canonical.
-/
namespace WalletRouting
set_option autoImplicit false

namespace Double

open Float.Model (Format UnpackedFloat)
open Float.Model.UnpackedFloat

/-- The implicit digit stands before the stored ones. -/
theorem toNat_implicit (m : BitVec 52) : (1#1 ++ m).toNat = 2 ^ 52 + m.toNat := by
  rw [BitVec.toNat_append, ← Nat.shiftLeft_add_eq_or_of_lt m.isLt]
  simp [Nat.shiftLeft_eq]

/-- The number that sign, exponent and digits stand for, as they are stored. -/
def assemble (s : Sign) (e : BitVec 11) (m : BitVec 52) : UnpackedFloat :=
  if e = -1#11 then if m = 0#52 then .infinity s else .notANumber
  else if e = 0#11 then
    if h : m = 0#52 then .zero s
    else .finite s m.toNat (-1074) (by simpa [BitVec.toNat_pos, BitVec.pos_iff_ne_zero])
  else .finite s (1#1 ++ m).toNat (e.toNat - 1075) (by rw [toNat_implicit]; omega)

theorem unpack_eq (b : BitVec 64) :
    unpack Format.binary64 b =
      assemble (Sign.ofBitVec (@unpackSign Format.binary64 b)) (@unpackExponent Format.binary64 b)
        (@unpackMantissa Format.binary64 b) := by
  unfold unpack assemble
  dsimp only
  split_ifs with hfull hinfinite hleast hzero
  · rfl
  · rfl
  · rfl
  · congr 1
    rw [hleast]
    rfl
  · rfl

theorem unpack_packComponents (s : Sign) (e : BitVec 11) (m : BitVec 52) :
    unpack Format.binary64 (packComponents Format.binary64 s e m) = assemble s e m := by
  rw [unpack_eq, unpackMantissa_packComponents, unpackExponent_packComponents, unpackSign_packComponents,
    Sign.ofBitVec_toBitVec]

theorem unpack_pack_infinity (s : Sign) :
    unpack Format.binary64 (pack Format.binary64 (.infinity s)) = .infinity s := by
  cases s <;> rfl

theorem unpack_pack_notANumber : unpack Format.binary64 (pack Format.binary64 .notANumber) = .notANumber := rfl

theorem unpack_pack_zero (s : Sign) : unpack Format.binary64 (pack Format.binary64 (.zero s)) = .zero s := by
  cases s <;> rfl

theorem pack_finite (s : Sign) {m : Nat} {e : Int} (hm : 0 < m) :
    pack Format.binary64 (.finite s m e hm) =
      if 2048 ≤ (e + 1023 + 52).toNat + 1 then packedInfinity Format.binary64 s
      else if m.log2 + 1 = 53 then
        packComponents Format.binary64 s (BitVec.ofNat 11 (e + 1023 + 52).toNat) (BitVec.ofNat 52 m)
      else packComponents Format.binary64 s 0#11 (BitVec.ofNat 52 m) :=
  rfl

/-- A finite number is kept, unless it is beyond the largest. -/
theorem unpack_pack_finite {m : Nat} {e : Int} (h : Canonical m e) (s : Sign) (hm : 0 < m) :
    unpack Format.binary64 (pack Format.binary64 (.finite s m e hm)) =
      if 971 < e then .infinity s else .finite s m e hm := by
  have hdigits := h.digits
  have hleast := h.least
  rw [pack_finite]
  by_cases hlarge : 971 < e
  · rw [if_pos hlarge, if_pos (by omega)]
    exact unpack_pack_infinity s
  rw [if_neg hlarge, if_neg (by omega)]
  by_cases hnormal : 2 ^ 52 ≤ m
  · have hlog : m.log2 = 52 := Nat.le_antisymm (by have := (Nat.log2_lt hm.ne').mpr hdigits; omega)
      ((Nat.le_log2 hm.ne').mpr hnormal)
    have hexponent : (BitVec.ofNat 11 (e + 1023 + 52).toNat).toNat = (e + 1075).toNat := by
      rw [BitVec.toNat_ofNat]
      omega
    have hfraction : (BitVec.ofNat 52 m).toNat = m - 2 ^ 52 := by
      rw [BitVec.toNat_ofNat]
      omega
    rw [if_pos (by omega), unpack_packComponents, assemble, if_neg, if_neg]
    · have hm' : 2 ^ 52 + (m - 2 ^ 52) = m := by omega
      have he : ((e + 1075).toNat : Int) - 1075 = e := by omega
      simp only [toNat_implicit, hexponent, hfraction, hm', he]
    · intro hzero
      rw [hzero] at hexponent
      change 0 = _ at hexponent
      omega
    · intro hfull
      rw [hfull] at hexponent
      change 2047 = _ at hexponent
      omega
  · have hlog : m.log2 < 52 := (Nat.log2_lt hm.ne').mpr (by omega)
    have hfraction : (BitVec.ofNat 52 m).toNat = m := by
      rw [BitVec.toNat_ofNat]
      omega
    have hexponent : e = -1074 := h.full.resolve_left hnormal
    subst hexponent
    rw [if_neg (by omega), unpack_packComponents, assemble, if_neg (by decide), if_pos rfl, dif_neg]
    · simp only [hfraction]
    · intro hzero
      rw [hzero] at hfraction
      change 0 = _ at hfraction
      omega

theorem canonical_assemble {s s' : Sign} {e' : BitVec 11} {m' : BitVec 52} {m : Nat} {e : Int} {hm : 0 < m}
    (h : assemble s' e' m' = .finite s m e hm) : Canonical m e ∧ e ≤ 971 := by
  have hm' := m'.isLt
  have he' := e'.isLt
  unfold assemble at h
  split_ifs at h with hfull _ hleast _
  · cases h
    exact ⟨⟨by omega, by omega, Or.inr rfl⟩, by omega⟩
  · have hpos : e'.toNat ≠ 0 := fun hzero => hleast (BitVec.eq_of_toNat_eq hzero)
    have hlt : e'.toNat ≠ 2047 := fun htop => hfull (BitVec.eq_of_toNat_eq htop)
    cases h
    rw [toNat_implicit]
    exact ⟨⟨by omega, by omega, Or.inl (by omega)⟩, by omega⟩

theorem canonical_unpack {x : Double} {s : Sign} {m : Nat} {e : Int} {hm : 0 < m}
    (h : x.toModel.unpack = .finite s m e hm) : Canonical m e ∧ e ≤ 971 :=
  canonical_assemble ((unpack_eq _).symm.trans h)

theorem place_pack_zero (s : Sign) : place (.ofModel (.pack (.zero s))) = some (0, 0, 0) :=
  congrArg placeOf (unpack_pack_zero s)

theorem place_pack_finite {m : Nat} {e : Int} (h : Canonical m e) (hm : 0 < m) :
    place (.ofModel (.pack (.finite .positive m e hm))) =
      some (if 971 < e then (2, 0, 0) else (1, e, (m : Int))) := by
  refine (congrArg placeOf (unpack_pack_finite h .positive hm)).trans ?_
  split_ifs <;> rfl

def isNegative : Sign → Bool
  | .negative => true
  | .positive => false

/-- An unpacked number as it is read. -/
def readingOf : UnpackedFloat → Binary
  | .notANumber => .nan
  | .infinity s => .infinite (isNegative s)
  | .zero s => .finite (isNegative s) 0 (-1074)
  | .finite s m e _ => .finite (isNegative s) m e

theorem readingOf_assemble (s : Sign) (e : BitVec 11) (m : BitVec 52) :
    readingOf (assemble s e m) =
      if e.toNat = 2047 then if m.toNat = 0 then .infinite (isNegative s) else .nan
      else if e.toNat = 0 then .finite (isNegative s) m.toNat (-1074)
      else .finite (isNegative s) (m.toNat + Nat.pow 2 52) (Int.ofNat e.toNat - 1075) := by
  have hfull : e.toNat = 2047 ↔ e = -1#11 := BitVec.toNat_inj (x := e) (y := -1#11)
  have hleast : e.toNat = 0 ↔ e = 0#11 := BitVec.toNat_inj (x := e) (y := 0#11)
  have hzero : m.toNat = 0 ↔ m = 0#52 := BitVec.toNat_inj (x := m) (y := 0#52)
  simp only [hfull, hleast, hzero]
  unfold assemble
  split_ifs with _ _ _ hm
  · rfl
  · rfl
  · rw [hm]
    rfl
  · rfl
  · rw [readingOf, toNat_implicit, Nat.add_comm]
    rfl

theorem isNegative_ofBitVec (b : BitVec 1) : isNegative (Sign.ofBitVec b) = decide (b.toNat = 1) := by
  revert b
  decide

theorem toNat_unpackExponent (x : Double) : (@unpackExponent Format.binary64 x.toModel.toBits.toBitVec).toNat =
    x.toBits.toNat / Nat.pow 2 52 % 2048 := by
  simp [unpackExponent, BitVec.extractLsb_toNat, Nat.shiftRight_eq_div_pow]
  rfl

theorem toNat_unpackMantissa (x : Double) : (@unpackMantissa Format.binary64 x.toModel.toBits.toBitVec).toNat =
    x.toBits.toNat % Nat.pow 2 52 := by
  simp [unpackMantissa, BitVec.extractLsb_toNat]
  rfl

theorem ofFloat_eq (x : Double) : Binary.ofFloat x = readingOf x.toModel.unpack := by
  have hsign : (@unpackSign Format.binary64 x.toModel.toBits.toBitVec).toNat =
      x.toBits.toNat / Nat.pow 2 63 % 2 := by
    simp [unpackSign, BitVec.extractLsb_toNat, Nat.shiftRight_eq_div_pow]
    rfl
  have hnegative : isNegative (Sign.ofBitVec (@unpackSign Format.binary64 x.toModel.toBits.toBitVec)) =
      decide (Nat.pow 2 63 ≤ x.toBits.toNat) := by
    have hlt : x.toBits.toNat < 2 ^ 64 := x.toBits.toBitVec.isLt
    have hpow : Nat.pow 2 63 = 2 ^ 63 := rfl
    rw [isNegative_ofBitVec, hsign, hpow]
    apply decide_eq_decide.mpr
    omega
  have hunpack : x.toModel.unpack = assemble _ _ _ := unpack_eq _
  rw [hunpack, readingOf_assemble, toNat_unpackExponent, toNat_unpackMantissa, hnegative]
  rfl

end Double

end WalletRouting
