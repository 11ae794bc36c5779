import WalletRouting.Proofs.Text.Units

/-! # Mended texts

A text that is read is spelled: it is the text of its points. Mending leaves a spelled text without halves as it is, and
what it makes of any other text has no halves either. A text that has no character of the last plane has no halves.
-/
namespace WalletRouting
set_option autoImplicit false

namespace Text

/-- Whether a text is written the way its points are. -/
def IsSpelled (s : String) : Prop := ofPoints (points s) = s

instance (s : String) : Decidable (IsSpelled s) := inferInstanceAs (Decidable (ofPoints (points s) = s))

theorem points_lt (s : String) : ∀ point ∈ points s, point < 0x110000 := pointsOf_lt s.toList

theorem isWhole_iff {s : String} : isWhole s = true ↔ ∀ point ∈ points s, isHalf point = false := by
  simp [isWhole]

theorem mended_of_isWhole {s : String} (hspelled : IsSpelled s) (hwhole : isWhole s = true) : mended s = s := by
  rw [isWhole_iff] at hwhole
  have hsame : (points s).flatMap (fun point => if isHalf point then replacements else ofPoint point) =
      (points s).flatMap ofPoint :=
    List.flatMap_congr fun point hpoint => by rw [hwhole point hpoint, if_neg Bool.false_ne_true]
  rw [mended, hsame]
  exact hspelled

/-- The points of what is written for a half. -/
def replacementPoints : List Nat := List.replicate 3 0xfffd

theorem mended_eq (s : String) :
    mended s =
      ofPoints ((points s).flatMap fun point => if isHalf point then replacementPoints else [point]) := by
  have hpoint (point : Nat) : (if isHalf point then replacements else ofPoint point) =
      (if isHalf point then replacementPoints else [point]).flatMap ofPoint := by
    split
    · decide
    · rw [List.flatMap_singleton]
  rw [mended, ofPoints, List.flatMap_assoc]
  simp only [hpoint]

theorem isWhole_mended (s : String) : isWhole (mended s) = true := by
  have hmended : ∀ p ∈ (points s).flatMap fun point =>
      if isHalf point then replacementPoints else [point], p < 0x110000 ∧ isHalf p = false := by
    intro p hp
    obtain ⟨point, hpoint, hp⟩ := List.mem_flatMap.mp hp
    split at hp
    · rw [List.eq_of_mem_replicate hp]
      decide
    · next hwhole =>
      rw [List.mem_singleton.mp hp]
      exact ⟨points_lt s point hpoint, eq_false_of_ne_true hwhole⟩
  rw [isWhole_iff, mended_eq, points_ofPoints fun p hp => (hmended p hp).1]
  exact fun p hp => (hmended p hp).2

/-- Whether no byte of a text begins a character of the last plane, where the stand-ins are. -/
def belowLastPlane (s : String) : Bool := s.toByteArray.data.toList.all fun b => b.toNat < 0xf4

theorem toNat_lt_lastPlane {c : Char} (h : ∀ b ∈ String.utf8EncodeChar c, b.toNat < 0xf4) : c.toNat < lastPlane := by
  have hval : c.toNat = c.val.toNat := rfl
  have hlt := toNat_lt c
  rw [hval] at hlt ⊢
  by_contra hlast
  simp only [lastPlane] at hlast
  -- Characters of the last plane are those of four bytes whose first one is 244.
  have hfirst : UInt8.ofNat (c.val.toNat / 262144 % 8 + 240) ∈ String.utf8EncodeChar c := by
    simp only [String.utf8EncodeChar]
    rw [if_neg (by omega), if_neg (by omega), if_neg (by omega)]
    exact List.mem_cons_self
  have hbyte := h _ hfirst
  rw [UInt8.toNat_ofNat'] at hbyte
  omega

theorem isHalf_of_mem_pointsOf {cs : List Char} (h : ∀ c ∈ cs, c.toNat < lastPlane) :
    ∀ point ∈ pointsOf cs, isHalf point = false := by
  induction cs with
  | nil => exact nofun
  | cons c cs ih =>
    obtain ⟨hc, hcs⟩ := List.forall_mem_cons.mp h
    have hmark : c ≠ mark := by
      rintro rfl
      exact absurd hc (by decide)
    have hreserved : ¬isReserved c.toNat = true := by
      rw [isReserved_iff]
      simp only [lastPlane] at hc
      omega
    have hvalid := c.valid
    rw [pointsOf_cons hmark, pointOf, if_neg hreserved]
    refine List.forall_mem_cons.mpr ⟨?_, ih hcs⟩
    rw [← Bool.not_eq_true, isHalf_iff]
    simp only [UInt32.isValidChar, Nat.isValidChar] at hvalid
    have hval : c.toNat = c.val.toNat := rfl
    omega

/-- The stand-ins for halves are all in the last plane. -/
theorem isWhole_of_belowLastPlane {s : String} (h : belowLastPlane s = true) : isWhole s = true := by
  have hbytes : s.toByteArray.data.toList = s.toList.flatMap String.utf8EncodeChar := by
    rw [← String.utf8Encode_toList, List.utf8Encode, List.toList_data_toByteArray]
  simp only [belowLastPlane, hbytes, List.all_eq_true, decide_eq_true_eq] at h
  rw [isWhole_iff]
  refine isHalf_of_mem_pointsOf fun c hc => toNat_lt_lastPlane fun b hb => h b (List.mem_flatMap.mpr ⟨c, hc, hb⟩)

end Text

end WalletRouting
