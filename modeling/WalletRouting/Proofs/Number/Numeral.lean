import Mathlib.Algebra.Field.Basic
import Mathlib.Data.Rat.Lemmas
import Mathlib.Tactic.FieldSimp
import Mathlib.Tactic.IntervalCases
import Mathlib.Tactic.Ring
import WalletRouting.Number.Decimal

/-! # Numerals

The text of a double is a numeral: digits, a point, a power of ten. Whoever reads the numeral comes to the decimal that
was written, wherever the layout puts the point.
-/
namespace WalletRouting
set_option autoImplicit false

namespace Decimal

def value (d : Decimal) : ℚ := d.digits * (10 : ℚ) ^ d.exponent

theorem value_stripZeros (fuel : Nat) (d : Decimal) : (stripZeros fuel d).value = d.value := by
  induction fuel generalizing d with
  | zero => rfl
  | succ fuel ih =>
    unfold stripZeros
    split
    · next h =>
      have hdigits : (d.digits : ℚ) = (d.digits / 10 : Nat) * 10 := by exact_mod_cast (by omega)
      rw [ih, value, value, hdigits, zpow_add_one₀ (by norm_num)]
      ring
    · rfl

theorem value_normal (d : Decimal) : d.normal.value = d.value := value_stripZeros _ d

end Decimal

/-- A number as a row of digits, whatever zeros it begins with. -/
structure Digits (n : Nat) where
  row : List Char
  digits : ∀ c ∈ row, c.isDigit = true
  begun : row ≠ []
  value : Nat.ofDigitChars 10 row 0 = n

namespace Digits

def of (n : Nat) : Digits n where
  row := Nat.toDigits 10 n
  digits _ hc := Nat.isDigit_of_mem_toDigits (by norm_num) (by norm_num) hc
  begun := Nat.toDigits_ne_nil
  value := Nat.ofDigitChars_toDigits (by norm_num) le_rfl

theorem isDigit_zeros {k : Nat} : ∀ c ∈ List.replicate k '0', c.isDigit = true := by
  intro c hc
  rw [List.eq_of_mem_replicate hc]
  rfl

def padded {n : Nat} (d : Digits n) (k : Nat) : Digits n where
  row := List.replicate k '0' ++ d.row
  digits := List.forall_mem_append.mpr ⟨isDigit_zeros, d.digits⟩
  begun := by simp [d.begun]
  value := by simp [Nat.ofDigitChars_append, d.value]

theorem length_pos {n : Nat} (d : Digits n) : 0 < d.row.length := List.length_pos_iff_ne_nil.mpr d.begun

/-- No zero stands before another digit. -/
def Plain {n : Nat} (d : Digits n) : Prop := d.row.head? = some '0' → d.row = ['0']

theorem head?_toDigits {n : Nat} (hn : 0 < n) : (Nat.toDigits 10 n).head? ≠ some '0' := by
  induction n using Nat.strongRecOn with
  | ind n ih =>
    by_cases hlt : n < 10
    · rw [Nat.toDigits_of_lt_base hlt]
      interval_cases n <;> decide
    · rw [Nat.toDigits_of_base_le (by norm_num) (not_lt.mp hlt), List.head?_append_of_ne_nil _ Nat.toDigits_ne_nil]
      exact ih (n / 10) (by omega) (by omega)

theorem plain_of (n : Nat) : (of n).Plain := by
  intro hzero
  rcases Nat.eq_zero_or_pos n with rfl | hn
  · rfl
  · exact absurd hzero (head?_toDigits hn)

end Digits

theorem isDigit_repr {n : Nat} : ∀ c ∈ n.repr.toList, c.isDigit = true := by
  rw [Nat.toList_repr]
  exact (Digits.of n).digits

/-- The parts of a numeral that is not mistaken for a whole number: it has a point or a power of ten. -/
structure Numeral where
  whole : List Char
  fraction : List Char
  exponent : Option Int
  digits : ∀ c ∈ whole ++ fraction, c.isDigit = true
  begun : whole ≠ []
  marked : fraction ≠ [] ∨ exponent ≠ none

namespace Numeral

def tail (exponent : Option Int) : List Char := (exponent.map fun e => (Layout.exponentText e).toList).getD []

def text (n : Numeral) : List Char :=
  n.whole ++ ((if n.fraction = [] then [] else '.' :: n.fraction) ++ tail n.exponent)

/-- The digits behind the point, behind it. -/
def point (n : Numeral) : List Char := if n.fraction = [] then [] else '.' :: n.fraction

theorem text_append (n : Numeral) (rest : List Char) :
    n.text ++ rest = n.whole ++ (n.point ++ (tail n.exponent ++ rest)) := by
  simp [text, point]

theorem digits_whole (n : Numeral) : ∀ c ∈ n.whole, c.isDigit = true := fun c hc => n.digits c (List.mem_append_left _ hc)

theorem digits_fraction (n : Numeral) : ∀ c ∈ n.fraction, c.isDigit = true := fun c hc =>
  n.digits c (List.mem_append_right _ hc)

def value (n : Numeral) : ℚ :=
  Nat.ofDigitChars 10 (n.whole ++ n.fraction) 0 * (10 : ℚ) ^ (n.exponent.getD 0 - n.fraction.length)

/-- The power of ten that the last digit counts. -/
def last (n : Numeral) : Int := n.exponent.getD 0 - n.fraction.length

/-- No zero stands before another digit of the whole part. -/
def Plain (n : Numeral) : Prop := n.whole.head? = some '0' → n.whole = ['0']

def readExponent : List Char → Int
  | 'e' :: '-' :: digits => -(Nat.ofDigitChars 10 digits 0 : Int)
  | 'e' :: '+' :: digits => Nat.ofDigitChars 10 digits 0
  | _ => 0

def readFraction (whole : List Char) : List Char → ℚ
  | '.' :: rest =>
    Nat.ofDigitChars 10 (whole ++ rest.takeWhile Char.isDigit) 0 *
      (10 : ℚ) ^ (readExponent (rest.dropWhile Char.isDigit) - (rest.takeWhile Char.isDigit).length)
  | rest => Nat.ofDigitChars 10 whole 0 * (10 : ℚ) ^ readExponent rest

def read (text : List Char) : ℚ := readFraction (text.takeWhile Char.isDigit) (text.dropWhile Char.isDigit)

theorem exists_tail (e : Int) :
    ∃ d : Digits e.natAbs, tail (some e) = 'e' :: (if e < 0 then '-' else '+') :: d.row := by
  simp only [tail, Option.map_some, Option.getD_some, Layout.exponentText, String.toList_append]
  -- A single digit has a zero before it.
  by_cases hshort : (toString e.natAbs).length < 2
  · refine ⟨(Digits.of e.natAbs).padded 1, ?_⟩
    rw [if_pos hshort]
    split <;> simp [Digits.padded, Digits.of]
  · refine ⟨Digits.of e.natAbs, ?_⟩
    rw [if_neg hshort]
    split <;> simp [Digits.of]

theorem readExponent_tail (exponent : Option Int) : readExponent (tail exponent) = exponent.getD 0 := by
  cases exponent with
  | none => rfl
  | some e =>
    obtain ⟨d, htail⟩ := exists_tail e
    rw [htail, Option.getD_some]
    split
    · rw [readExponent, d.value]
      omega
    · rw [readExponent, d.value]
      omega

theorem tail_head (exponent : Option Int) : ∀ c ∈ (tail exponent).head?, c = 'e' := by
  intro c hc
  cases exponent with
  | none => cases hc
  | some e =>
    obtain ⟨d, htail⟩ := exists_tail e
    rw [htail] at hc
    exact (Option.some.inj hc).symm

theorem takeWhile_append {p : Char → Bool} {row rest : List Char} (hrow : ∀ c ∈ row, p c = true)
    (hrest : ∀ c ∈ rest.head?, p c = false) :
    (row ++ rest).takeWhile p = row ∧ (row ++ rest).dropWhile p = rest := by
  rw [List.takeWhile_append_of_pos hrow, List.dropWhile_append_of_pos hrow]
  cases rest with
  | nil => simp
  | cons c rest =>
    have hc : p c = false := hrest c rfl
    simp [hc]

theorem read_text (n : Numeral) : read n.text = n.value := by
  have htail : ∀ c ∈ (tail n.exponent).head?, c.isDigit = false := fun c hc => by rw [tail_head _ c hc]; rfl
  unfold read text value
  by_cases hnone : n.fraction = []
  · obtain ⟨htake, hdrop⟩ := takeWhile_append n.digits_whole htail
    rw [if_pos hnone, List.nil_append, htake, hdrop, hnone, List.append_nil, List.length_nil]
    have hread : readFraction n.whole (tail n.exponent) =
        Nat.ofDigitChars 10 n.whole 0 * (10 : ℚ) ^ readExponent (tail n.exponent) := by
      unfold readFraction
      split
      · next rest heq => exact absurd (tail_head n.exponent '.' (by rw [heq]; rfl)) (by decide)
      · rfl
    rw [hread, readExponent_tail]
    simp
  · have hpoint : ∀ c ∈ ('.' :: n.fraction ++ tail n.exponent).head?, c.isDigit = false := by
      rintro c hc
      cases hc
      rfl
    obtain ⟨htake, hdrop⟩ := takeWhile_append n.digits_whole hpoint
    obtain ⟨htake', hdrop'⟩ := takeWhile_append n.digits_fraction htail
    rw [if_neg hnone, htake, hdrop, List.cons_append, readFraction, htake', hdrop', readExponent_tail]

theorem mem_tail {exponent : Option Int} {c : Char} (hc : c ∈ tail exponent) :
    c.isDigit = true ∨ c = 'e' ∨ c = '+' ∨ c = '-' := by
  cases exponent with
  | none => cases hc
  | some e =>
    obtain ⟨d, htail⟩ := exists_tail e
    rw [htail, List.mem_cons, List.mem_cons] at hc
    rcases hc with rfl | rfl | hc
    · exact Or.inr (Or.inl rfl)
    · split
      · exact Or.inr (Or.inr (Or.inr rfl))
      · exact Or.inr (Or.inr (Or.inl rfl))
    · exact Or.inl (d.digits c hc)

theorem mem_text {n : Numeral} {c : Char} (hc : c ∈ n.text) :
    c.isDigit = true ∨ c = '.' ∨ c = 'e' ∨ c = '+' ∨ c = '-' := by
  rw [text, List.mem_append, List.mem_append] at hc
  rcases hc with hc | hc | hc
  · exact Or.inl (n.digits c (List.mem_append_left _ hc))
  · split at hc
    · cases hc
    · rcases List.mem_cons.mp hc with rfl | hc
      · exact Or.inr (Or.inl rfl)
      · exact Or.inl (n.digits c (List.mem_append_right _ hc))
  · rcases mem_tail hc with hc | hc
    · exact Or.inl hc
    · exact Or.inr (Or.inr hc)

theorem marked_text (n : Numeral) : '.' ∈ n.text ∨ 'e' ∈ n.text := by
  rw [text, List.mem_append, List.mem_append, List.mem_append, List.mem_append]
  rcases n.marked with hfraction | hexponent
  · rw [if_neg hfraction]
    exact Or.inl (Or.inr (Or.inl List.mem_cons_self))
  · obtain ⟨e, he⟩ := Option.ne_none_iff_exists'.mp hexponent
    obtain ⟨d, htail⟩ := exists_tail e
    rw [he, htail]
    exact Or.inr (Or.inr (Or.inr List.mem_cons_self))

theorem text_head (n : Numeral) : ∃ c rest, n.text = c :: rest ∧ c.isDigit = true := by
  obtain ⟨c, rest, hwhole⟩ := List.exists_cons_of_ne_nil n.begun
  refine ⟨c, _, by rw [text, hwhole, List.cons_append], n.digits c ?_⟩
  rw [hwhole]
  exact List.mem_cons_self

/-- What the numeral of a decimal is like. -/
structure Spells (n : Numeral) (d : Decimal) : Prop where
  value : n.value = d.value
  last : d.exponent ≤ n.last ∨ n.last = -1
  plain : n.Plain

theorem Spells.le_last {n : Numeral} {d : Decimal} (h : n.Spells d) {k : Int} (hd : k ≤ d.exponent) (hk : k ≤ -1) :
    k ≤ n.last :=
  h.last.elim hd.trans fun hlast => hk.trans_eq hlast.symm

end Numeral

namespace Layout

def sign (negative : Bool) : List Char := if negative then ['-'] else []

theorem sign_append_inj {negative other : Bool} {n k : Numeral}
    (h : sign negative ++ n.text = sign other ++ k.text) : negative = other ∧ n.text = k.text := by
  obtain ⟨c, rest, hn, hc⟩ := n.text_head
  obtain ⟨d, rest', hk, hd⟩ := k.text_head
  have hminus : '-'.isDigit = false := rfl
  rw [hn, hk] at h ⊢
  cases negative <;> cases other <;> simp only [sign, Bool.false_eq_true, if_true, if_false, List.nil_append,
    List.singleton_append, List.cons.injEq] at h
  · exact ⟨rfl, by rw [h.1, h.2]⟩
  · rw [h.1, hminus] at hc
    cases hc
  · rw [← h.1, hminus] at hd
    cases hd
  · exact ⟨rfl, by rw [h.2.1, h.2.2]⟩

section Row

variable {digits : Nat} {d : Digits digits}

theorem numeral_padded (hd : d.Plain) {k : Nat} (hk : digits = 0 → k = 0) :
    ∃ n : Numeral, n.text = d.row ++ List.replicate k '0' ++ ['.', '0'] ∧ n.value = digits * (10 : ℚ) ^ (k : Int) ∧
      n.last = -1 ∧ n.Plain := by
  refine ⟨⟨d.row ++ List.replicate k '0', ['0'], none, ?_, by simp [d.begun], Or.inl (by simp)⟩, ?_, ?_, rfl, ?_⟩
  · simp only [List.forall_mem_append, List.forall_mem_singleton]
    exact ⟨⟨d.digits, Digits.isDigit_zeros⟩, rfl⟩
  · simp [Numeral.text, Numeral.tail]
  · simp [Numeral.value, Nat.ofDigitChars_append, Nat.ofDigitChars_cons, d.value]
    field_simp
  · intro hzero
    change (d.row ++ List.replicate k '0').head? = some '0' at hzero
    rw [List.head?_append_of_ne_nil _ d.begun] at hzero
    have hrow := hd hzero
    have hdigits : digits = 0 := by
      rw [← d.value, hrow]
      rfl
    change d.row ++ List.replicate k '0' = ['0']
    rw [hrow, hk hdigits]
    rfl

theorem numeral_below {places : Nat} (hfew : d.row.length ≤ places) :
    ∃ n : Numeral, n.text = '0' :: '.' :: (List.replicate (places - d.row.length) '0' ++ d.row) ∧
      n.value = digits * (10 : ℚ) ^ (-(places : Int)) ∧ n.last = -places ∧ n.Plain := by
  have hpadded := (d.padded (places - d.row.length)).value
  have hplaces : (d.padded (places - d.row.length)).row.length = places := by simp [Digits.padded, hfew]
  refine ⟨⟨['0'], (d.padded (places - d.row.length)).row, none, ?_, by simp, Or.inl (Digits.begun _)⟩, ?_, ?_, ?_,
    fun _ => rfl⟩
  · simp only [List.forall_mem_append, List.forall_mem_singleton]
    exact ⟨rfl, Digits.digits _⟩
  · simp only [Numeral.text, if_neg (Digits.begun _)]
    simp [Digits.padded, Numeral.tail]
  · simp only [Numeral.value, hplaces]
    simp [Nat.ofDigitChars_cons, hpadded]
  · simp [Numeral.last, hplaces]

theorem numeral_within (hd : d.Plain) {places : Nat} (hpos : 0 < places) (hmany : places < d.row.length) :
    ∃ n : Numeral, n.text = d.row.take (d.row.length - places) ++ '.' :: d.row.drop (d.row.length - places) ∧
      n.value = digits * (10 : ℚ) ^ (-(places : Int)) ∧ n.last = -places ∧ n.Plain := by
  have hplaces : (d.row.drop (d.row.length - places)).length = places := by rw [List.length_drop]; omega
  have hfraction : d.row.drop (d.row.length - places) ≠ [] := by rw [← List.length_pos_iff_ne_nil]; omega
  refine ⟨⟨d.row.take (d.row.length - places), d.row.drop (d.row.length - places), none, ?_, ?_, Or.inl hfraction⟩,
    ?_, ?_, ?_, ?_⟩
  · rw [List.take_append_drop]
    exact d.digits
  · rw [← List.length_pos_iff_ne_nil, List.length_take]
    omega
  · simp [Numeral.text, Numeral.tail, hfraction]
  · simp only [Numeral.value, hplaces, List.take_append_drop, d.value]
    simp
  · simp [Numeral.last, hplaces]
  · intro hzero
    change (d.row.take (d.row.length - places)).head? = some '0' at hzero
    rw [List.head?_take, if_neg (by omega)] at hzero
    have hlength := congrArg List.length (hd hzero)
    rw [List.length_singleton] at hlength
    omega

theorem numeral_scientific (exponent : Int) :
    ∃ n : Numeral, n.text = d.row.take 1 ++ ((if d.row.drop 1 = [] then [] else '.' :: d.row.drop 1) ++
        (exponentText (d.row.length + exponent - 1)).toList) ∧
      n.value = digits * (10 : ℚ) ^ exponent ∧ n.last = exponent ∧ n.Plain := by
  have hpos := d.length_pos
  have hplaces : (d.row.drop 1).length = d.row.length - 1 := List.length_drop
  refine ⟨⟨d.row.take 1, d.row.drop 1, some (d.row.length + exponent - 1), ?_, ?_, Or.inr (by simp)⟩, rfl, ?_, ?_, ?_⟩
  · rw [List.take_append_drop]
    exact d.digits
  · rw [← List.length_pos_iff_ne_nil, List.length_take]
    omega
  · simp only [Numeral.value, hplaces, List.take_append_drop, d.value, Option.getD_some]
    congr 2
    omega
  · simp only [Numeral.last, hplaces, Option.getD_some]
    omega
  · intro hzero
    obtain ⟨c, rest, hrow⟩ := List.exists_cons_of_ne_nil d.begun
    change (d.row.take 1).head? = some '0' at hzero
    change d.row.take 1 = ['0']
    rw [hrow] at hzero ⊢
    rw [List.take_succ_cons, List.take_zero, Option.some.inj hzero]

end Row

theorem exists_numeral (negative : Bool) {d : Decimal} (hd : d.digits = 0 → d.exponent = 0) :
    ∃ n : Numeral, (exact.write negative d).toList = sign negative ++ n.text ∧ n.Spells d := by
  obtain ⟨digits, exponent⟩ := d
  have hsign : (if negative then "-" else "").toList = sign negative := by cases negative <;> rfl
  have hrow : Nat.toDigits 10 digits = (Digits.of digits).row := rfl
  have hplain := Digits.plain_of digits
  simp only [write, exact, hrow]
  split
  · cases exponent with
    | ofNat k =>
      obtain ⟨n, htext, hvalue, hlast, hn⟩ := numeral_padded hplain fun h => Int.ofNat_eq_zero.mp (hd h)
      exact ⟨n, by simp [htext, hsign], hvalue, Or.inr hlast, hn⟩
    | negSucc k =>
      dsimp only
      split
      · next hfew =>
        obtain ⟨n, htext, hvalue, hlast, hn⟩ := numeral_below hfew
        exact ⟨n, by simp [htext, hsign], hvalue, Or.inl hlast.ge, hn⟩
      · next hmany =>
        obtain ⟨n, htext, hvalue, hlast, hn⟩ := numeral_within hplain k.succ_pos (not_le.mp hmany)
        exact ⟨n, by simp [htext, hsign], hvalue, Or.inl hlast.ge, hn⟩
  · obtain ⟨n, htext, hvalue, hlast, hn⟩ := numeral_scientific (d := Digits.of digits) exponent
    refine ⟨n, ?_, hvalue, Or.inl hlast.ge, hn⟩
    simp only [htext, String.toList_append, hsign, List.isEmpty_iff]
    split <;> simp

end Layout

end WalletRouting
