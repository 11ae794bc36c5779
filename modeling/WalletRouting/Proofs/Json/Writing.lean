import Mathlib
import WalletRouting.Proofs.Json.Datum
import WalletRouting.Proofs.Number.Shortest

/-! # What was written can be told

A JSON text shows where it ends, a number by what follows it, and values of the same text stand for the same datum: texts
are taken back unit by unit, numbers by their digits, lists and objects from the commas and brackets that no number
contains.
-/
namespace WalletRouting
set_option autoImplicit false

namespace Json

/-! ## Texts -/

def hexValue (c : Char) : Nat := if c.toNat < 97 then c.toNat - 48 else c.toNat - 87

theorem hexValue_hexDigit : ∀ n < 16, hexValue (hexDigit n) = n := by decide

def unitAfterBackslash (c : Char) : Nat :=
  if c = 'n' then 10 else if c = 'r' then 13 else if c = 't' then 9 else if c = 'f' then 12 else if c = 'b' then 8
  else c.toNat

/-- Reads units up to the closing quote. -/
def readQuoted : List Char → Option (List Nat × List Char)
  | [] => none
  | '"' :: rest => some ([], rest)
  | '\\' :: 'u' :: a :: b :: c :: d :: rest =>
    (readQuoted rest).map fun r =>
      ((hexValue a * 4096 + hexValue b * 256 + hexValue c * 16 + hexValue d) :: r.1, r.2)
  | '\\' :: c :: rest => (readQuoted rest).map fun r => (unitAfterBackslash c :: r.1, r.2)
  | c :: rest => (readQuoted rest).map fun r => (c.toNat :: r.1, r.2)

theorem readQuoted_escape {u : Nat} (hu : u < 65536) (rest : List Char) :
    readQuoted (escape u ++ rest) = (readQuoted rest).map fun r => (u :: r.1, r.2) := by
  unfold escape
  split_ifs with h34 h92 h10 h13 h9 h12 h8 hprintable
  · subst h34
    simp [readQuoted, unitAfterBackslash]
  · subst h92
    simp [readQuoted, unitAfterBackslash]
  · subst h10
    simp [readQuoted, unitAfterBackslash]
  · subst h13
    simp [readQuoted, unitAfterBackslash]
  · subst h9
    simp [readQuoted, unitAfterBackslash]
  · subst h12
    simp [readQuoted, unitAfterBackslash]
  · subst h8
    simp [readQuoted, unitAfterBackslash]
  · have hchar : (Char.ofNat u).toNat = u := Text.toNat_ofNat (Or.inl (by omega))
    have hquote : Char.ofNat u ≠ '"' := fun h => h34 (by rw [← hchar, h]; rfl)
    have hslash : Char.ofNat u ≠ '\\' := fun h => h92 (by rw [← hchar, h]; rfl)
    rw [List.singleton_append]
    generalize Char.ofNat u = c at *
    have hread : readQuoted (c :: rest) = (readQuoted rest).map fun r => (c.toNat :: r.1, r.2) := by
      rw [readQuoted] <;> grind
    rw [hread, hchar]
  · rw [unitEscape]
    simp only [List.cons_append, List.nil_append, readQuoted]
    rw [hexValue_hexDigit _ (by omega), hexValue_hexDigit _ (by omega), hexValue_hexDigit _ (by omega),
      hexValue_hexDigit _ (by omega)]
    have hunit : u / 4096 % 16 * 4096 + u / 256 % 16 * 256 + u / 16 % 16 * 16 + u % 16 = u := by omega
    rw [hunit]

theorem readQuoted_units {us : List Nat} (hus : ∀ u ∈ us, u < 65536) (rest : List Char) :
    readQuoted (us.flatMap escape ++ '"' :: rest) = some (us, rest) := by
  induction us with
  | nil => rfl
  | cons u us ih =>
    rw [List.forall_mem_cons] at hus
    rw [List.flatMap_cons, List.append_assoc, readQuoted_escape hus.1, ih hus.2]
    rfl

theorem escape_eq_unitEscape {u : Nat} (hlow : 126 < u) (hhigh : u < 65536) : escape u = unitEscape u := by
  unfold escape
  iterate 8 rw [if_neg (by omega)]
  rw [if_pos hhigh]

theorem escape_eq {point : Nat} (h : point < 0x110000) : escape point = (Text.unitsOf point).flatMap escape := by
  unfold Text.unitsOf
  split
  · simp
  · next hlarge =>
    have hfirst := escape_eq_unitEscape (u := 55296 + (point - 65536) / 1024) (by omega) (by omega)
    have hsecond := escape_eq_unitEscape (u := 56320 + (point - 65536) % 1024) (by omega) (by omega)
    rw [List.flatMap_cons, List.flatMap_singleton, hfirst, hsecond]
    unfold escape
    iterate 9 rw [if_neg (by omega)]

theorem quoted_eq (s : String) : quoted s = '"' :: ((Text.units s).flatMap escape ++ ['"']) := by
  have hpoints : (Text.points s).flatMap escape = (Text.units s).flatMap escape := by
    rw [Text.units, List.flatMap_assoc]
    exact List.flatMap_congr fun point hpoint => escape_eq (Text.pointsOf_lt s.toList point hpoint)
  rw [quoted, hpoints]

theorem quoted_inj {a b : String} {r s : List Char} (h : quoted a ++ r = quoted b ++ s) :
    Text.units a = Text.units b ∧ r = s := by
  rw [quoted_eq, quoted_eq, List.cons_append, List.cons_append, List.append_assoc, List.append_assoc] at h
  have hread := congrArg readQuoted (List.cons.inj h).2
  rw [List.singleton_append, List.singleton_append, readQuoted_units (Text.units_lt a),
    readQuoted_units (Text.units_lt b)] at hread
  exact Prod.mk.inj (Option.some.inj hread)

theorem quoted_congr {a b : String} (h : Text.units a = Text.units b) : quoted a = quoted b := by
  rw [quoted_eq, quoted_eq, h]

/-! ## Numbers -/

/-- Whether there is a mark of a finite double, and one of a double that is not finite. -/
def marks (text : List Char) : Bool × Bool :=
  (text.contains '.' || text.contains 'e', text.contains 'N' || text.contains 'I')

theorem mem_repr {n : Int} {c : Char} (hc : c ∈ n.repr.toList) : c.isDigit = true ∨ c = '-' := by
  rw [Int.repr_eq_if] at hc
  split at hc
  · exact Or.inl (isDigit_repr c hc)
  · rw [String.toList_append, List.mem_append] at hc
    rcases hc with hc | hc
    · exact Or.inr (List.mem_singleton.mp hc)
    · exact Or.inl (isDigit_repr c hc)

theorem mem_exactText {x : Double} (hx : x.finite = true) {c : Char} (hc : c ∈ x.exactText.toList) :
    c.isDigit = true ∨ c = '.' ∨ c = 'e' ∨ c = '+' ∨ c = '-' := by
  obtain ⟨negative, m, e, hread⟩ := Double.exists_of_finite hx
  obtain ⟨n, htext, -⟩ := Double.exists_numeral_exactText hread
  rw [htext, List.mem_append] at hc
  rcases hc with hc | hc
  · cases negative
    · cases hc
    · rw [List.mem_singleton.mp hc]
      simp
  · exact Numeral.mem_text hc

theorem marks_repr (n : Int) : marks n.repr.toList = (false, false) := by
  have hnone (c : Char) (hdigit : c.isDigit = false) (hminus : c ≠ '-') : n.repr.toList.contains c = false := by
    rw [← Bool.not_eq_true, List.contains_iff_mem]
    intro hc
    rcases mem_repr hc with hc | hc
    · rw [hdigit] at hc
      cases hc
    · exact hminus hc
  rw [marks, hnone '.' rfl (by decide), hnone 'e' rfl (by decide), hnone 'N' rfl (by decide), hnone 'I' rfl (by decide)]
  rfl

theorem marks_exactText {x : Double} (hx : x.finite = true) : marks x.exactText.toList = (true, false) := by
  have hsome : (x.exactText.toList.contains '.' || x.exactText.toList.contains 'e') = true := by
    obtain ⟨negative, m, e, hread⟩ := Double.exists_of_finite hx
    obtain ⟨n, htext, -⟩ := Double.exists_numeral_exactText hread
    rw [Bool.or_eq_true, List.contains_iff_mem, List.contains_iff_mem, htext]
    exact n.marked_text.imp (List.mem_append_right _) (List.mem_append_right _)
  have hnone (c : Char) (hdigit : c.isDigit = false) (hother : ¬(c = '.' ∨ c = 'e' ∨ c = '+' ∨ c = '-')) :
      x.exactText.toList.contains c = false := by
    rw [← Bool.not_eq_true, List.contains_iff_mem]
    intro hc
    rcases mem_exactText hx hc with hc | hc
    · rw [hdigit] at hc
      cases hc
    · exact hother hc
  rw [marks, hsome, hnone 'N' rfl (by decide), hnone 'I' rfl (by decide)]
  rfl

/-- What is no finite number is named by a word. -/
def wordDatum (word : String) : Datum :=
  .double (if word = "NaN" then .nan else .infinite (word = "-Infinity"))

theorem numberText_cases (n : Number) :
    (∃ k, n.datum = .int k ∧ numberText n = k.repr) ∨
      (∃ x : Double, x.finite = true ∧ n.datum = .double (Binary.ofFloat x) ∧ numberText n = x.exactText) ∨
      numberText n ∈ ["NaN", "Infinity", "-Infinity"] ∧ n.datum = wordDatum (numberText n) := by
  cases n with
  | int k => exact Or.inl ⟨k, rfl, rfl⟩
  | float x =>
    cases h : Binary.ofFloat x with
    | nan =>
      have htext : numberText (.float x) = "NaN" := by simp only [numberText, h]
      exact Or.inr (Or.inr ⟨by rw [htext]; decide, by rw [htext, Number.datum, h]; rfl⟩)
    | infinite negative =>
      have htext : numberText (.float x) = if negative = true then "-Infinity" else "Infinity" := by
        simp only [numberText, h]
      exact Or.inr (Or.inr ⟨by rw [htext]; cases negative <;> decide, by
        rw [htext, Number.datum, h]
        cases negative <;> rfl⟩)
    | finite negative m e =>
      exact Or.inr (Or.inl ⟨x, by rw [Double.finite, h], rfl, by simp only [numberText, h]⟩)

theorem marks_word {word : String} (h : word ∈ ["NaN", "Infinity", "-Infinity"]) :
    marks word.toList = (false, true) := by
  revert word
  decide

theorem datum_eq_of_numberText {a b : Number} (h : numberText a = numberText b) : a.datum = b.datum := by
  have hmarks : marks (numberText a).toList = marks (numberText b).toList := by rw [h]
  rcases numberText_cases a with ⟨k, ha, htext⟩ | ⟨x, hx, ha, htext⟩ | ⟨hword, ha⟩ <;>
    rcases numberText_cases b with ⟨l, hb, htext'⟩ | ⟨y, hy, hb, htext'⟩ | ⟨hword', hb⟩
  · rw [ha, hb, Int.repr_injective (htext.symm.trans (h.trans htext'))]
  · rw [htext, htext', marks_repr, marks_exactText hy] at hmarks
    cases hmarks
  · rw [htext, marks_repr, marks_word hword'] at hmarks
    cases hmarks
  · rw [htext, htext', marks_repr, marks_exactText hx] at hmarks
    cases hmarks
  · rw [ha, hb, Double.ofFloat_eq_of_exactText hx hy (htext.symm.trans (h.trans htext'))]
  · rw [htext, marks_exactText hx, marks_word hword'] at hmarks
    cases hmarks
  · rw [htext', marks_repr, marks_word hword] at hmarks
    cases hmarks
  · rw [htext', marks_exactText hy, marks_word hword] at hmarks
    cases hmarks
  · rw [ha, hb, h]

theorem numberText_congr {a b : Number} (h : a.datum = b.datum) : numberText a = numberText b := by
  cases a <;> cases b <;> unfold Number.datum at h
  · rw [Datum.int.inj h]
  · cases h
  · cases h
  · simp only [numberText, Double.exactText, Double.writeWith, Datum.double.inj h]

def isNumeric (c : Char) : Bool := c.isAlphanum || c = '.' || c = '+' || c = '-'

theorem isNumeric_numberText (n : Number) : ∀ c ∈ (numberText n).toList, isNumeric c = true := by
  have hdigit {c : Char} (h : c.isDigit = true) : isNumeric c = true := by simp [isNumeric, Char.isAlphanum, h]
  rcases numberText_cases n with ⟨k, -, htext⟩ | ⟨x, hx, -, htext⟩ | ⟨hword, -⟩
  · intro c hc
    rw [htext] at hc
    rcases mem_repr hc with h | rfl
    · exact hdigit h
    · rfl
  · intro c hc
    rw [htext] at hc
    rcases mem_exactText hx hc with h | rfl | rfl | rfl | rfl
    · exact hdigit h
    all_goals rfl
  · rw [← List.all_eq_true]
    revert hword
    generalize numberText n = word
    revert word
    decide

/-! ## Kinds -/

/-- What follows a value: nothing, or what ends an item. -/
def Ends (rest : List Char) : Prop := ∀ c ∈ rest.head?, isNumeric c = false

theorem numberText_append_inj {a b : Number} {r s : List Char} (hr : Ends r) (hs : Ends s)
    (h : (numberText a).toList ++ r = (numberText b).toList ++ s) : numberText a = numberText b ∧ r = s := by
  obtain ⟨htakeA, hdropA⟩ := Numeral.takeWhile_append (isNumeric_numberText a) hr
  obtain ⟨htakeB, hdropB⟩ := Numeral.takeWhile_append (isNumeric_numberText b) hs
  rw [← String.toList_inj, ← htakeA, ← htakeB, h]
  exact ⟨rfl, by rw [← hdropA, h, hdropB]⟩

inductive Kind where
  | null
  | bool
  | number
  | text
  | list
  | object
  | nothing
  deriving DecidableEq

def kindOf : Value → Kind
  | .null => .null
  | .bool _ => .bool
  | .num _ => .number
  | .text _ => .text
  | .list _ => .list
  | .object _ => .object
  | .unresolved => .nothing

/-- The kind of a value, from the first character of its text. -/
def kindFrom (c : Char) : Option Kind :=
  if c.isDigit ∨ c = '-' ∨ c = 'N' ∨ c = 'I' then some .number
  else if c = 'n' then some .null
  else if c = 't' ∨ c = 'f' then some .bool
  else if c = '"' then some .text
  else if c = '[' then some .list
  else if c = '\x7b' then some .object
  else if c = 'U' then some .nothing
  else none

theorem numberText_head (n : Number) : ∃ c rest, (numberText n).toList = c :: rest ∧ kindFrom c = some .number := by
  rcases numberText_cases n with ⟨k, -, htext⟩ | ⟨x, hx, -, htext⟩ | ⟨hword, -⟩
  · have hne : k.repr.toList ≠ [] := by
      rw [Int.repr_eq_if]
      split
      · rw [Nat.toList_repr]
        exact Nat.toDigits_ne_nil
      · simp
    obtain ⟨c, rest, hrest⟩ := List.exists_cons_of_ne_nil hne
    refine ⟨c, rest, by rw [htext, hrest], if_pos ?_⟩
    have hc : c ∈ k.repr.toList := by rw [hrest]; exact List.mem_cons_self
    exact (mem_repr hc).imp id Or.inl
  · obtain ⟨negative, m, e, hread⟩ := Double.exists_of_finite hx
    obtain ⟨k, hsigned, -⟩ := Double.exists_numeral_exactText hread
    rw [htext, hsigned]
    cases negative with
    | true => exact ⟨'-', _, rfl, rfl⟩
    | false =>
      obtain ⟨c, rest, hrest, hdigit⟩ := k.text_head
      exact ⟨c, rest, hrest, if_pos (Or.inl hdigit)⟩
  · simp only [List.mem_cons, List.not_mem_nil, or_false] at hword
    rcases hword with htext | htext | htext <;> rw [htext] <;> exact ⟨_, _, rfl, rfl⟩

theorem write_head (v : Value) : ∃ c rest, write v = c :: rest ∧ kindFrom c = some (kindOf v) := by
  cases v with
  | null => exact ⟨'n', _, rfl, rfl⟩
  | bool b => cases b <;> exact ⟨_, _, rfl, rfl⟩
  | num n => exact numberText_head n
  | text s => exact ⟨'"', _, rfl, rfl⟩
  | list xs => exact ⟨'[', _, rfl, rfl⟩
  | object ms => exact ⟨'\x7b', _, rfl, rfl⟩
  | unresolved => exact ⟨'U', _, rfl, rfl⟩

theorem kindOf_eq {v w : Value} {r s : List Char} (h : write v ++ r = write w ++ s) : kindOf v = kindOf w := by
  obtain ⟨c, rest, hv, hc⟩ := write_head v
  obtain ⟨d, rest', hw, hd⟩ := write_head w
  rw [hv, hw, List.cons_append, List.cons_append, List.cons.injEq] at h
  rw [h.1, hd] at hc
  exact (Option.some.inj hc).symm

theorem write_ne {v : Value} {r rest : List Char} {c : Char} (hc : kindFrom c = none) : write v ++ r ≠ c :: rest := by
  obtain ⟨d, _, hv, hd⟩ := write_head v
  rw [hv, List.cons_append]
  intro h
  rw [(List.cons.inj h).1, hc] at hd
  cases hd

/-! ## Rows -/

def row : List (List Char) → List Char
  | [] => []
  | [text] => text
  | text :: rest => text ++ ',' :: row rest

/-- The part of a row behind its first text. -/
def behind : List (List Char) → List Char
  | [] => []
  | rest => ',' :: row rest

theorem row_cons (text : List Char) (rest : List (List Char)) : row (text :: rest) = text ++ behind rest := by
  cases rest with
  | nil => rw [row, behind, List.append_nil]
  | cons next rest => rfl

theorem ends_behind {close : Char} (hclose : isNumeric close = false) (texts : List (List Char)) (rest : List Char) :
    Ends (behind texts ++ close :: rest) := by
  intro c hc
  cases texts with
  | nil =>
    cases hc
    exact hclose
  | cons text texts =>
    cases hc
    rfl

section Told

variable {α β : Type} {put : α → List Char} {data : α → β} {close : Char}

/-- Whether the text of an item can be cut off from what follows it, and tells its datum. -/
def Told (put : α → List Char) (data : α → β) (x : α) : Prop :=
  ∀ y r s, Ends r → Ends s → put x ++ r = put y ++ s → data x = data y ∧ r = s

theorem row_told (hclose : isNumeric close = false) (hcomma : close ≠ ',')
    (hput : ∀ x rest r, put x ++ rest ≠ close :: r) {xs : List α} (hxs : ∀ x ∈ xs, Told put data x) {ys : List α}
    {r s : List Char} (h : row (xs.map put) ++ close :: r = row (ys.map put) ++ close :: s) :
    xs.map data = ys.map data ∧ r = s := by
  induction xs generalizing ys with
  | nil =>
    cases ys with
    | nil => exact ⟨rfl, (List.cons.inj h).2⟩
    | cons y ys =>
      rw [List.map_cons, row_cons, List.append_assoc] at h
      exact absurd h.symm (hput y _ _)
  | cons x xs ih =>
    rw [List.forall_mem_cons] at hxs
    cases ys with
    | nil =>
      rw [List.map_cons, row_cons, List.append_assoc] at h
      exact absurd h (hput x _ _)
    | cons y ys =>
      rw [List.map_cons, List.map_cons, row_cons, row_cons, List.append_assoc, List.append_assoc] at h
      obtain ⟨hfirst, hrest⟩ := hxs.1 y _ _ (ends_behind hclose _ r) (ends_behind hclose _ s) h
      -- What follows tells whether the row goes on, for the bracket that closes it is no comma.
      have hmore : xs.map data = ys.map data ∧ r = s := by
        cases xs <;> cases ys
        · exact ⟨rfl, (List.cons.inj hrest).2⟩
        · exact absurd (List.cons.inj hrest).1 hcomma
        · exact absurd (List.cons.inj hrest).1.symm hcomma
        · exact ih hxs.2 (List.cons.inj hrest).2
      exact ⟨by rw [List.map_cons, List.map_cons, hfirst, hmore.1], hmore.2⟩

end Told

/-! ## Values -/

def putMember (m : String × Value) : List Char := quoted m.1 ++ ':' :: write m.2

@[simp] theorem writeItems_eq (xs : List Value) : writeItems xs = row (xs.map write) := by
  induction xs with
  | nil => rfl
  | cons x xs ih =>
    cases xs with
    | nil => rfl
    | cons y ys => exact congrArg (fun rest => write x ++ ',' :: rest) ih

@[simp] theorem writeMembers_eq (ms : List (String × Value)) : writeMembers ms = row (ms.map putMember) := by
  induction ms with
  | nil => rfl
  | cons m ms ih =>
    cases ms with
    | nil => rfl
    | cons n ns =>
      rw [List.map_cons, row_cons, putMember, List.append_assoc, List.cons_append]
      exact congrArg (fun rest => quoted m.1 ++ ':' :: (write m.2 ++ ',' :: rest)) ih

theorem write_list (xs : List Value) : write (.list xs) = '[' :: (row (xs.map write) ++ [']']) := by
  rw [← writeItems_eq]
  rfl

theorem write_object (ms : List (String × Value)) :
    write (.object ms) = '\x7b' :: (row (ms.map putMember) ++ ['\x7d']) := by
  rw [← writeMembers_eq]
  rfl

theorem write_bool (b : Bool) : write (.bool b) = if b then ['t', 'r', 'u', 'e'] else ['f', 'a', 'l', 's', 'e'] := by
  cases b <;> rfl

/-- The text of a value can be cut off from what follows it, and tells what the value stands for. -/
theorem write_told (v : Value) : Told write Value.datum v := by
  induction v using Value.induct with
  | null =>
    intro w r s _ _ h
    have hkind := kindOf_eq h
    cases w <;> cases hkind
    exact ⟨rfl, List.append_cancel_left h⟩
  | bool b =>
    intro w r s _ _ h
    have hkind := kindOf_eq h
    cases w <;> cases hkind
    next b' =>
    rw [write_bool, write_bool] at h
    cases b <;> cases b'
    · exact ⟨rfl, List.append_cancel_left h⟩
    · cases (List.cons.inj h).1
    · cases (List.cons.inj h).1
    · exact ⟨rfl, List.append_cancel_left h⟩
  | num n =>
    intro w r s hr hs h
    have hkind := kindOf_eq h
    cases w <;> cases hkind
    obtain ⟨htext, hrest⟩ := numberText_append_inj hr hs h
    exact ⟨datum_eq_of_numberText htext, hrest⟩
  | text t =>
    intro w r s _ _ h
    have hkind := kindOf_eq h
    cases w <;> cases hkind
    obtain ⟨hunits, hrest⟩ := quoted_inj h
    exact ⟨congrArg Datum.text hunits, hrest⟩
  | list xs ih =>
    intro w r s _ _ h
    have hkind := kindOf_eq h
    cases w <;> cases hkind
    next ys =>
    rw [write_list, write_list, List.cons_append, List.cons_append, List.append_assoc, List.append_assoc] at h
    obtain ⟨hdata, hrest⟩ := row_told rfl (by decide) (fun _ _ _ => write_ne rfl) ih (List.cons.inj h).2
    rw [Value.datum_list, Value.datum_list, hdata]
    exact ⟨rfl, hrest⟩
  | object ms ih =>
    intro w r s _ _ h
    have hkind := kindOf_eq h
    cases w <;> cases hkind
    next ns =>
    rw [write_object, write_object, List.cons_append, List.cons_append, List.append_assoc, List.append_assoc] at h
    have hmembers : ∀ m ∈ ms, Told putMember (fun m => (Text.units m.1, m.2.datum)) m := by
      intro m hm n r s hr hs h
      rw [putMember, putMember, List.append_assoc, List.append_assoc, List.cons_append, List.cons_append] at h
      obtain ⟨hunits, hrest⟩ := quoted_inj h
      obtain ⟨hdatum, hrest⟩ := ih m hm n.2 r s hr hs (List.cons.inj hrest).2
      exact ⟨congrArg₂ Prod.mk hunits hdatum, hrest⟩
    obtain ⟨hdata, hrest⟩ := row_told rfl (by decide) (fun m rest r => by
      intro h
      cases (List.cons.inj h).1) hmembers (List.cons.inj h).2
    rw [Value.datum_object, Value.datum_object, hdata]
    exact ⟨rfl, hrest⟩
  | unresolved =>
    intro w r s _ _ h
    have hkind := kindOf_eq h
    cases w <;> cases hkind
    exact ⟨rfl, List.append_cancel_left h⟩

theorem datum_eq_of_write {v w : Value} (h : write v = write w) : v.datum = w.datum :=
  (write_told v w [] [] (by simp [Ends]) (by simp [Ends]) (by rw [h])).1

end Json

end WalletRouting
