import WalletRouting.Proofs.Draws.Cycle
import WalletRouting.Proofs.Draws.Position

/-! # Correlation ids

A sixteenth of a word is a hexadecimal digit, exactly: the four highest bits. Thirty-two words in a row are written so, in
groups of eight, four, four, four and twelve digits with a dash between them; since no digit is a dash, the dashes are
where the groups end and nowhere else.
-/
namespace WalletRouting
set_option autoImplicit false

namespace Generator

def digitOf (word : UInt32) : Char := Nat.digitChar (word.toNat / 2 ^ 28)

theorem digitOf_hexadecimal (word : UInt32) :
    '0' ≤ digitOf word ∧ digitOf word ≤ '9' ∨ 'a' ≤ digitOf word ∧ digitOf word ≤ 'f' := by
  have hdigits : ∀ d < 16, '0' ≤ Nat.digitChar d ∧ Nat.digitChar d ≤ '9' ∨
      'a' ≤ Nat.digitChar d ∧ Nat.digitChar d ≤ 'f' := by decide
  exact hdigits (word.toNat / 2 ^ 28) (Nat.div_lt_of_lt_mul word.toNat_lt)

theorem digitOf_ne_dash (word : UInt32) : digitOf word ≠ '-' := by
  intro hdash
  have hhexadecimal := digitOf_hexadecimal word
  rw [hdash] at hhexadecimal
  exact absurd hhexadecimal (by decide)

theorem hexDigit_position (g : Generator) : hexDigits.getD (g.position 16).1 '0' = digitOf g.next.1 := by
  have hdigits : ∀ d < 16, hexDigits.getD d '0' = Nat.digitChar d := by decide
  have hposition := (g.position_turn 16).exact (by decide)
  have hsixteenth : g.next.1.toNat * 16 / 2 ^ 32 = g.next.1.toNat / 2 ^ 28 :=
    Nat.mul_div_mul_right _ (2 ^ 28) (by decide : 0 < 16)
  rw [hdigits _ ((g.position_turn 16).below (by decide)), hposition, hsixteenth]
  rfl

/-! ## Groups -/

section

variable (digit : Nat → Char) (start count : Nat)

def dashed (k : Nat) : List Char := if dashPlaces.contains k then ['-', digit k] else [digit k]

def group : List Char := (List.range' start count).map digit

theorem correlationDigits_fst (g : Generator) :
    (correlationDigits count start ⟨g.seed, g.drawn + start⟩).1 =
      (List.range' start count).flatMap (dashed fun k => digitOf (g.wordAt k)) := by
  induction count generalizing start with
  | zero => rfl
  | succ count ih =>
    have hdigit := hexDigit_position ⟨g.seed, g.drawn + start⟩
    rw [correlationDigits, List.range'_succ, List.flatMap_cons, ← ih]
    dsimp only
    rw [hdigit, dashed]
    split <;> rfl

theorem flatMap_dashed : (List.range' 0 32).flatMap (dashed digit) =
    group digit 0 8 ++ '-' :: (group digit 8 4 ++ '-' :: (group digit 12 4 ++ '-' ::
      (group digit 16 4 ++ '-' :: group digit 20 12))) := rfl

theorem groups_eq : group digit 0 8 ++ (group digit 8 4 ++ (group digit 12 4 ++ (group digit 16 4 ++ group digit 20 12))) =
    (List.range 32).map digit := rfl

variable {digit}

theorem length_group : (group digit start count).length = count := by rw [group, List.length_map, List.length_range']

theorem dash_not_mem_group (h : ∀ k, digit k ≠ '-') : '-' ∉ group digit start count := by
  rw [group, List.mem_map]
  rintro ⟨k, -, hdash⟩
  exact h k hdash

theorem filter_group (h : ∀ k, digit k ≠ '-') : (group digit start count).filter (· != '-') = group digit start count := by
  rw [List.filter_eq_self]
  intro c hc
  exact bne_iff_ne.mpr fun hdash => dash_not_mem_group start count h (hdash ▸ hc)

theorem filter_dashed (h : ∀ k, digit k ≠ '-') (back : List Char) :
    (group digit start count ++ '-' :: back).filter (· != '-') =
      group digit start count ++ back.filter (· != '-') := by
  rw [List.filter_append, filter_group start count h]
  rfl

/-- Behind a group without a dash there is one, and it is the first. -/
theorem getElem?_eq_dash_iff {back : List Char} (h : ∀ k, digit k ≠ '-') (p : Nat) :
    (group digit start count ++ '-' :: back)[p]? = some '-' ↔
      p = count ∨ count < p ∧ back[p - count - 1]? = some '-' := by
  have hlength : (group digit start count).length = count := length_group start count
  rcases lt_trichotomy p count with hlt | rfl | hgt
  · rw [List.getElem?_append_left (by rwa [hlength])]
    constructor
    · intro hdash
      exact absurd (List.mem_of_getElem? hdash) (dash_not_mem_group start count h)
    · omega
  · rw [List.getElem?_append_right hlength.le, hlength, Nat.sub_self]
    exact iff_of_true rfl (Or.inl rfl)
  · have hbehind : p - count = p - count - 1 + 1 := by omega
    rw [List.getElem?_append_right (by omega), hlength, hbehind, List.getElem?_cons_succ]
    constructor
    · intro hdash
      exact Or.inr ⟨hgt, hdash⟩
    · rintro (hfirst | ⟨-, hdash⟩)
      · omega
      · exact hdash

end

/-! ## Ids -/

/-- How words are written in hexadecimal, a digit for each, with dashes where the groups end. -/
structure Correlates (words : List UInt32) (id : String) : Prop where
  length : id.toList.length = 36
  dashes : ∀ p, id.toList[p]? = some '-' ↔ p = 8 ∨ p = 13 ∨ p = 18 ∨ p = 23
  hexadecimal : ∀ c ∈ id.toList, c ≠ '-' → '0' ≤ c ∧ c ≤ '9' ∨ 'a' ≤ c ∧ c ≤ 'f'
  digits : id.toList.filter (· != '-') = words.map fun word => Nat.digitChar (word.toNat / 2 ^ 28)

theorem toList_correlationId (g : Generator) : g.correlationId.1.toList = (correlationDigits 32 0 g).1 := by
  rw [correlationId]
  exact String.toList_ofList

theorem correlationDigits_all (g : Generator) : (correlationDigits 32 0 g).1 =
    (List.range' 0 32).flatMap (dashed fun k => digitOf (g.wordAt k)) := by
  have hdigits := correlationDigits_fst 0 32 g
  rwa [Nat.add_zero] at hdigits

/-- A correlation id is thirty-two words in a row. -/
theorem correlationId_correlates (g : Generator) :
    Correlates ((List.range 32).map g.wordAt) g.correlationId.1 ∧ g.correlationId.2 = ⟨g.seed, g.drawn + 32⟩ := by
  have hdash : ∀ k, digitOf (g.wordAt k) ≠ '-' := fun k => digitOf_ne_dash (g.wordAt k)
  have hid := (toList_correlationId g).trans ((correlationDigits_all g).trans (flatMap_dashed _))
  have hdigits : g.correlationId.1.toList.filter (· != '-') = ((List.range 32).map g.wordAt).map digitOf := by
    simp only [hid, filter_dashed _ _ hdash, filter_group _ _ hdash]
    rw [groups_eq, List.map_map]
    rfl
  constructor
  · constructor
    · simp only [hid, List.length_append, List.length_cons, length_group]
    · intro p
      have hlast (q : Nat) : (group (fun k => digitOf (g.wordAt k)) 20 12)[q]? ≠ some '-' := fun h =>
        dash_not_mem_group 20 12 hdash (List.mem_of_getElem? h)
      simp only [hid, getElem?_eq_dash_iff _ _ hdash, hlast, and_false, or_false]
      omega
    · intro c hc hne
      have hdigit : c ∈ g.correlationId.1.toList.filter (· != '-') := List.mem_filter.mpr ⟨hc, bne_iff_ne.mpr hne⟩
      rw [hdigits] at hdigit
      obtain ⟨word, -, rfl⟩ := List.mem_map.mp hdigit
      exact digitOf_hexadecimal word
    · exact hdigits
  · exact correlationDigits_snd 32 0 g

end Generator

end WalletRouting
