import Mathlib.Data.List.Basic
import WalletRouting.Json.Printer

/-! # Units of a text

A text is written in UTF-16 units, one for a point of the first plane and two halves for any other. Halves that stand
side by side are written as the point they make up; a text without halves is told from every other one by its units.
-/
namespace WalletRouting
set_option autoImplicit false

namespace Text

def unitsOf (point : Nat) : List Nat :=
  if point < 65536 then [point] else [55296 + (point - 65536) / 1024, 56320 + (point - 65536) % 1024]

def units (s : String) : List Nat := (points s).flatMap unitsOf

theorem toNat_lt (c : Char) : c.toNat < 0x110000 := by
  have hvalid := c.valid
  simp only [UInt32.isValidChar, Nat.isValidChar] at hvalid
  have hval : c.toNat = c.val.toNat := rfl
  omega

theorem pointOf_lt (c : Char) : pointOf c < 0x110000 := by
  have hlt := toNat_lt c
  unfold pointOf
  split <;> omega

theorem pointsOf_lt (cs : List Char) : ∀ point ∈ pointsOf cs, point < 0x110000 := by
  induction cs using pointsOf.induct with
  | case1 => simp [pointsOf]
  | case2 => simp [pointsOf]
  | case3 c h => simp [pointsOf, h, pointOf_lt]
  | case4 d rest ih =>
    simp only [pointsOf, if_true, List.forall_mem_cons]
    exact ⟨toNat_lt d, ih⟩
  | case5 c d rest h ih =>
    simp only [pointsOf, if_neg h, List.forall_mem_cons]
    exact ⟨pointOf_lt c, ih⟩

theorem units_lt (s : String) : ∀ u ∈ units s, u < 65536 := by
  intro u hu
  obtain ⟨point, hpoint, hu⟩ := List.mem_flatMap.mp hu
  have hlt := pointsOf_lt s.toList point hpoint
  unfold unitsOf at hu
  split at hu
  · rw [List.mem_singleton.mp hu]
    assumption
  · simp only [List.mem_cons, List.not_mem_nil, or_false] at hu
    omega

theorem unitsOf_append_inj {p q : Nat} {us vs : List Nat} (hp : isHalf p = false) (hq : isHalf q = false)
    (hpLt : p < 0x110000) (hqLt : q < 0x110000) (h : unitsOf p ++ us = unitsOf q ++ vs) : p = q ∧ us = vs := by
  have hp' : ¬(0xD800 ≤ p ∧ p ≤ 0xDFFF) := fun hhalf => Bool.eq_false_iff.mp hp (isHalf_iff.mpr hhalf)
  have hq' : ¬(0xD800 ≤ q ∧ q ≤ 0xDFFF) := fun hhalf => Bool.eq_false_iff.mp hq (isHalf_iff.mpr hhalf)
  unfold unitsOf at h
  split at h <;> split at h <;> simp only [List.cons_append, List.nil_append, List.cons.injEq] at h
  · exact h
  · omega
  · omega
  · exact ⟨by omega, h.2.2⟩

theorem points_eq_of_units {a b : String} (ha : isWhole a = true) (hb : isWhole b = true) (h : units a = units b) :
    points a = points b := by
  have hwhole (s : String) (hs : isWhole s = true) : ∀ p ∈ points s, isHalf p = false ∧ p < 0x110000 := fun p hp =>
    ⟨by simpa using List.all_eq_true.mp hs p hp, pointsOf_lt s.toList p hp⟩
  have hwa := hwhole a ha
  have hwb := hwhole b hb
  unfold units at h
  generalize points a = ps at *
  generalize points b = qs at *
  induction ps generalizing qs with
  | nil =>
    cases qs with
    | nil => rfl
    | cons q qs =>
      unfold unitsOf at h
      simp only [List.flatMap_nil, List.flatMap_cons] at h
      split at h <;> cases h
  | cons p ps ih =>
    cases qs with
    | nil =>
      unfold unitsOf at h
      simp only [List.flatMap_nil, List.flatMap_cons] at h
      split at h <;> cases h
    | cons q qs =>
      rw [List.forall_mem_cons] at hwa hwb
      rw [List.flatMap_cons, List.flatMap_cons] at h
      obtain ⟨rfl, hrest⟩ := unitsOf_append_inj hwa.1.1 hwb.1.1 hwa.1.2 hwb.1.2 h
      rw [ih hwa.2 qs hwb.2 hrest]

theorem units_congr {a b : String} (h : points a = points b) : units a = units b := by rw [units, units, h]

/-! ## Order -/

theorem precedes_cons {p q : Nat} {ps qs : List Nat} :
    precedes (p :: ps) (q :: qs) = true ↔ p < q ∨ p = q ∧ precedes ps qs = true := by
  rw [precedes, Bool.or_eq_true, decide_eq_true_iff, Bool.and_eq_true, beq_iff_eq]

theorem not_precedes_of_precedes {a b : List Nat} (h : precedes a b = true) : precedes b a = false := by
  rw [← Bool.not_eq_true]
  induction a generalizing b with
  | nil => cases b <;> simp [precedes]
  | cons p ps ih =>
    cases b with
    | nil => simp [precedes] at h
    | cons q qs =>
      rw [precedes_cons] at h ⊢
      rcases h with hlt | ⟨rfl, hrest⟩
      · omega
      · simpa using ih hrest

theorem eq_of_not_precedes {a b : List Nat} (h : precedes a b = false) (h' : precedes b a = false) : a = b := by
  rw [← Bool.not_eq_true] at h h'
  induction a generalizing b with
  | nil =>
    cases b with
    | nil => rfl
    | cons q qs => simp [precedes] at h
  | cons p ps ih =>
    cases b with
    | nil => simp [precedes] at h'
    | cons q qs =>
      rw [precedes_cons, not_or, not_and] at h h'
      have hpq : p = q := by omega
      rw [hpq, ih (h.2 hpq) (h'.2 hpq.symm)]

theorem not_precedes_trans {a b c : List Nat} (h : precedes b a = false) (h' : precedes c b = false) :
    precedes c a = false := by
  rw [← Bool.not_eq_true] at h h' ⊢
  induction a generalizing b c with
  | nil => cases c <;> simp [precedes]
  | cons p ps ih =>
    cases b with
    | nil => simp [precedes] at h
    | cons q qs =>
      cases c with
      | nil => simp [precedes] at h'
      | cons r rs =>
        rw [precedes_cons, not_or, not_and] at h h' ⊢
        refine ⟨by omega, fun hrp => ?_⟩
        have hqp : q = p := by omega
        exact ih (h.2 hqp) (h'.2 (by omega))

end Text

end WalletRouting
