import WalletRouting.Json.Encoding
import WalletRouting.Proofs.Json.Writing
import WalletRouting.Proofs.Number.Reading

/-! # Texts and numbers that are read

A text that was written is read unit by unit, and halves that stand side by side become the point that they make up. A
number is read from its digits, since what follows a value is no part of a number.
-/
namespace WalletRouting
set_option autoImplicit false

namespace Json

variable {start offset : Nat} {done tail rest row : List Char}

/-! ## Texts -/

theorem hexValue?_hexDigit : ∀ n < 16, hexValue? (hexDigit n) = some n := by decide

theorem unit?_hexDigit {n : Nat} (hn : n < 65536) :
    unit? (hexDigit (n / 4096 % 16)) (hexDigit (n / 256 % 16)) (hexDigit (n / 16 % 16)) (hexDigit (n % 16)) =
      some n := by
  unfold unit?
  rw [hexValue?_hexDigit _ (by omega), hexValue?_hexDigit _ (by omega), hexValue?_hexDigit _ (by omega),
    hexValue?_hexDigit _ (by omega)]
  simp only [Option.bind_eq_bind, Option.bind_some, Option.pure_def, Option.some.injEq]
  omega

/-- What follows the first half of a pair does not begin with the second. -/
def Apart (tail : List Char) : Prop :=
  ∀ e f g h next rest, tail = '\\' :: 'u' :: e :: f :: g :: h :: next :: rest →
    ∃ low, unit? e f g h = some low ∧ isLowUnit low = false

theorem textRest_unit {n : Nat} {a b c d : Char} (hn : unit? a b c d = some n) (htail : tail ≠ [])
    (hapart : isHighUnit n = true → Apart tail) :
    textRest start done offset ('\\' :: 'u' :: a :: b :: c :: d :: tail) =
      textRest start (pushPoint n done) (offset + 6) tail := by
  obtain ⟨x, more, rfl⟩ := List.exists_cons_of_ne_nil htail
  by_cases hpair : ∃ e f g h next rest, x :: more = '\\' :: 'u' :: e :: f :: g :: h :: next :: rest
  · obtain ⟨e, f, g, h, next, rest, hmore⟩ := hpair
    rw [hmore, textRest, hn]
    dsimp only
    split
    · next hhigh =>
      obtain ⟨low, hlow, hbelow⟩ := hapart hhigh e f g h next rest hmore
      simp [hlow, hbelow]
    · rfl
  · rw [textRest, hn]
    intro e f g h next rest hx hmore
    exact hpair ⟨e, f, g, h, next, rest, by rw [hx, hmore]⟩

theorem textRest_pair {high low : Nat} (hhigh : high < 65536) (hlow : low < 65536)
    (hpair : isHighUnit high = true ∧ isLowUnit low = true) (htail : tail ≠ []) :
    textRest start done offset (unitEscape high ++ (unitEscape low ++ tail)) =
      textRest start (pushPoint (pairPoint high low) done) (offset + 12) tail := by
  obtain ⟨x, more, rfl⟩ := List.exists_cons_of_ne_nil htail
  simp only [unitEscape, List.cons_append, List.nil_append]
  rw [textRest, unit?_hexDigit hhigh]
  dsimp only
  rw [if_pos hpair.1, unit?_hexDigit hlow]
  dsimp only
  rw [if_pos hpair.2]

theorem textRest_simple {c d : Char} (hd : simpleEscape? c = some d) :
    textRest start done offset ('\\' :: c :: tail) = textRest start (d :: done) (offset + 2) tail := by
  have hc : c ≠ 'u' := by
    rintro rfl
    cases hd
  simp [textRest, hc, hd]

theorem textRest_plain {c : Char} (hquote : c ≠ '"') (hslash : c ≠ '\\') (hlow : 32 ≤ c.toNat)
    (hhigh : c.toNat ≤ 126) :
    textRest start done offset (c :: tail) = textRest start (c :: done) (offset + 1) tail := by
  have hnot : ¬c.toNat < 32 := by omega
  have hmark : c ≠ Text.mark := by
    rintro rfl
    exact absurd hhigh (by decide)
  cases tail with
  | nil => simp [textRest, hslash, hnot, hmark]
  | cons x more => simp [textRest, hslash, hnot, hmark]

theorem escape_cases {u : Nat} (hu : u < 65536) :
    (∃ c d, escape u = ['\\', c] ∧ simpleEscape? c = some d ∧ Text.ofPoint u = [d]) ∨
      (∃ c, escape u = [c] ∧ c ≠ '"' ∧ c ≠ '\\' ∧ 32 ≤ c.toNat ∧ c.toNat ≤ 126 ∧ Text.ofPoint u = [c]) ∨
      escape u = unitEscape u := by
  unfold escape
  split_ifs with h34 h92 h10 h13 h9 h12 h8 hprintable
  iterate 7 exact Or.inl ⟨_, _, rfl, rfl, by subst_vars; rfl⟩
  · have hchar : (Char.ofNat u).toNat = u := Text.toNat_ofNat (Or.inl (by omega))
    have hquote : Char.ofNat u ≠ '"' := fun h => h34 (by rw [← hchar, h]; rfl)
    have hslash : Char.ofNat u ≠ '\\' := fun h => h92 (by rw [← hchar, h]; rfl)
    have hhalf : ¬Text.isHalf u = true := by rw [Text.isHalf_iff]; omega
    have hreserved : ¬Text.isReserved u = true := by rw [Text.isReserved_iff]; omega
    rw [← hchar] at hprintable
    exact Or.inr (Or.inl ⟨_, rfl, hquote, hslash, hprintable.1, hprintable.2, by
      rw [Text.ofPoint, if_neg hhalf, if_neg hreserved]⟩)
  · exact Or.inr (Or.inr rfl)

theorem textRest_escape {u : Nat} (hu : u < 65536) (htail : tail ≠ []) (hapart : isHighUnit u = true → Apart tail) :
    textRest start done offset (escape u ++ tail) =
      textRest start (pushPoint u done) (offset + (escape u).length) tail := by
  rcases escape_cases hu with ⟨c, d, hescape, hd, hpoint⟩ | ⟨c, hescape, hquote, hslash, hlow, hhigh, hpoint⟩ | hescape
  · rw [hescape, pushPoint, hpoint]
    exact textRest_simple hd
  · rw [hescape, pushPoint, hpoint]
    exact textRest_plain hquote hslash hlow hhigh
  · rw [hescape]
    exact textRest_unit (unit?_hexDigit hu) htail hapart

theorem apart_quote : Apart ('"' :: rest) := by
  intro e f g h next more heq
  cases heq

theorem apart_escape {u : Nat} (hu : u < 65536) (hlow : isLowUnit u = false) : Apart (escape u ++ rest) := by
  intro e f g h next more heq
  rcases escape_cases hu with ⟨c, d, hescape, hd, -⟩ | ⟨c, hescape, -, hslash, -⟩ | hescape
  · rw [hescape] at heq
    obtain rfl := (List.cons.inj (List.cons.inj heq).2).1
    cases hd
  · rw [hescape] at heq
    exact absurd (List.cons.inj heq).1 hslash
  · rw [hescape] at heq
    simp only [unitEscape, List.cons_append, List.nil_append, List.cons.injEq, true_and] at heq
    obtain ⟨rfl, rfl, rfl, rfl, -⟩ := heq
    exact ⟨u, unit?_hexDigit hu, hlow⟩

theorem lt_of_isHighUnit {n : Nat} (h : isHighUnit n = true) : 126 < n := by
  simp only [isHighUnit, Bool.and_eq_true, decide_eq_true_eq] at h
  omega

theorem lt_of_isLowUnit {n : Nat} (h : isLowUnit n = true) : 126 < n := by
  simp only [isLowUnit, Bool.and_eq_true, decide_eq_true_eq] at h
  omega

theorem reverse_pushPoint (point : Nat) (done : List Char) :
    (pushPoint point done).reverse = done.reverse ++ Text.ofPoint point := by
  rw [pushPoint, List.reverse_append, List.reverse_reverse]

theorem textRest_units {us : List Nat} (hus : ∀ u ∈ us, u < 65536) :
    textRest start done offset (us.flatMap escape ++ '"' :: rest) =
      .ok (String.ofList (done.reverse ++ (pointsOfUnits us).flatMap Text.ofPoint),
        ⟨offset + (us.flatMap escape).length + 1, rest⟩) := by
  fun_induction pointsOfUnits us generalizing done offset with
  | case1 => simp [textRest]
  | case2 n =>
    rw [List.forall_mem_cons] at hus
    rw [List.flatMap_singleton, textRest_escape hus.1 (List.cons_ne_nil _ _) fun _ => apart_quote, textRest,
      reverse_pushPoint, List.flatMap_singleton]
  | case3 high low more hpair ih =>
    rw [List.forall_mem_cons, List.forall_mem_cons] at hus
    rw [Bool.and_eq_true] at hpair
    rw [List.flatMap_cons, List.flatMap_cons, escape_eq_unitEscape (lt_of_isHighUnit hpair.1) hus.1,
      escape_eq_unitEscape (lt_of_isLowUnit hpair.2) hus.2.1, List.append_assoc, List.append_assoc,
      textRest_pair hus.1 hus.2.1 hpair (by simp), ih hus.2.2, reverse_pushPoint, List.flatMap_cons, List.append_assoc]
    congr 3
    simp only [unitEscape, List.length_append, List.length_cons, List.length_nil]
    omega
  | case4 high low more hpair ih =>
    rw [List.forall_mem_cons] at hus
    have hlow : isHighUnit high = true → isLowUnit low = false := by
      intro hhigh
      simpa [hhigh] using hpair
    have hapart : isHighUnit high = true → Apart ((low :: more).flatMap escape ++ '"' :: rest) := by
      intro hhigh
      rw [List.flatMap_cons, List.append_assoc]
      exact apart_escape (hus.2 low List.mem_cons_self) (hlow hhigh)
    rw [List.flatMap_cons, List.append_assoc, textRest_escape hus.1 (by simp) hapart, ih hus.2, reverse_pushPoint,
      List.append_assoc, List.length_append, ← Nat.add_assoc]
    rfl

/-- A text as it is read when it was written. -/
def joined (s : String) : String := Text.ofPoints (pointsOfUnits (Text.units s))

/-- Whether a text is read as it was written. -/
def IsJoined (s : String) : Prop := joined s = s

theorem IsJoined.eq {s : String} (h : IsJoined s) : joined s = s := h

instance (s : String) : Decidable (IsJoined s) :=
  decidable_of_iff ((pointsOfUnits (Text.units s)).flatMap Text.ofPoint = s.toList) (by
    rw [IsJoined, ← String.toList_inj, joined, Text.ofPoints, String.toList_ofList])

theorem exists_quoted (s : String) :
    ∃ body, quoted s = '"' :: body ∧ ∀ (start offset : Nat) (rest : List Char),
      textRest start [] offset (body ++ rest) = .ok (joined s, ⟨offset + body.length, rest⟩) := by
  refine ⟨_, quoted_eq s, fun start offset rest => ?_⟩
  rw [List.append_assoc, List.singleton_append, textRest_units (Text.units_lt s), List.length_append]
  rfl

/-! ## Numbers -/

theorem digitsOf_append (hrow : ∀ c ∈ row, c.isDigit = true) (hrest : ∀ c ∈ rest.head?, c.isDigit = false) :
    digitsOf (row ++ rest) = (row, rest) := by
  induction row with
  | nil =>
    cases rest with
    | nil => rfl
    | cons c rest =>
      have hc : c.isDigit = false := hrest c rfl
      simp [digitsOf, hc]
  | cons c row ih =>
    rw [List.forall_mem_cons] at hrow
    rw [List.cons_append, digitsOf, if_pos hrow.1, ih hrow.2]

theorem digitValue_eq (row : List Char) : digitValue row = Nat.ofDigitChars 10 row 0 := by
  unfold digitValue Nat.ofDigitChars
  congr 1
  funext n c
  rw [Nat.mul_comm]
  rfl

theorem Ends.not_digit (h : Ends rest) : ∀ c ∈ rest.head?, c.isDigit = false := by
  intro c hc
  have := h c hc
  simp only [isNumeric, Char.isAlphanum, Bool.or_eq_false_iff] at this
  exact this.1.1.1.2

theorem exponentPart?_ends (h : Ends rest) : exponentPart? rest = none := by
  cases rest with
  | nil => rfl
  | cons c rest =>
    have hc : isNumeric c = false := h c rfl
    have he : ¬(c = 'e' ∨ c = 'E') := by
      rintro (rfl | rfl) <;> cases hc
    simp [exponentPart?, he]

theorem exponentPart?_tail (e : Int) (h : Ends rest) :
    exponentPart? (Numeral.tail (some e) ++ rest) = some (e, (Numeral.tail (some e)).length, rest) := by
  obtain ⟨d, htail⟩ := Numeral.exists_tail e
  have hdigits := digitsOf_append d.digits h.not_digit
  have hnone : d.row.isEmpty = false := List.isEmpty_eq_false_iff.mpr d.begun
  rw [htail]
  by_cases hneg : e < 0
  · have he : Binary.signed true (digitValue d.row) = e := by
      rw [digitValue_eq, d.value, Binary.signed, if_pos rfl, Int.ofNat_eq_natCast]
      omega
    simp [exponentPart?, hneg, hdigits, hnone, he, Nat.add_comm 2]
  · have he : Binary.signed false (digitValue d.row) = e := by
      rw [digitValue_eq, d.value, Binary.signed, if_neg Bool.false_ne_true, Int.ofNat_eq_natCast]
      omega
    simp [exponentPart?, hneg, hdigits, hnone, he, Nat.add_comm 2]

/-- The digits before the point, and what follows them. -/
def wholePart : List Char → List Char × List Char
  | '0' :: rest => (['0'], rest)
  | chars => digitsOf chars

/-- The digits behind the point, if there are any, and what follows with its offset. -/
def fractionPart (offset : Nat) (rest : List Char) : List Char × Nat × List Char :=
  match rest with
  | '.' :: more =>
    let (places, left) := digitsOf more
    if places.isEmpty then ([], offset, rest) else (places, offset + 1 + places.length, left)
  | _ => ([], offset, rest)

/-- The number of the digits that were read, by what follows them. -/
def numberOf (negative : Bool) (digits fraction : List Char) (offset : Nat) (rest : List Char) :
    Except ReadError (Value × Cursor) :=
  match exponentPart? rest with
  | some (e, length, left) =>
    .ok (.float (decimalDouble negative (digitValue (digits ++ fraction)) (e - Int.ofNat fraction.length)),
      ⟨offset + length, left⟩)
  | none =>
    if fraction.isEmpty then
      if integerDigitLimit < digits.length then .error .oversizedInteger
      else .ok (.int (Binary.signed negative (digitValue digits)), ⟨offset, rest⟩)
    else
      .ok (.float (decimalDouble negative (digitValue (digits ++ fraction)) (-(Int.ofNat fraction.length))),
        ⟨offset, rest⟩)

theorem unsigned_eq (negative : Bool) (chars : List Char) :
    unsigned start negative offset chars =
      if (wholePart chars).1.isEmpty then .error (.malformed start)
      else
        let (fraction, offset, rest) := fractionPart (offset + (wholePart chars).1.length) (wholePart chars).2
        numberOf negative (wholePart chars).1 fraction offset rest := rfl

theorem wholePart_append (hrow : ∀ c ∈ row, c.isDigit = true) (hbegun : row ≠ [])
    (hplain : row.head? = some '0' → row = ['0']) (hrest : ∀ c ∈ rest.head?, c.isDigit = false) :
    wholePart (row ++ rest) = (row, rest) := by
  obtain ⟨c, more, rfl⟩ := List.exists_cons_of_ne_nil hbegun
  by_cases hzero : c = '0'
  · subst hzero
    rw [hplain rfl]
    rfl
  · rw [List.cons_append, wholePart, ← List.cons_append, digitsOf_append hrow hrest]
    simpa using hzero

theorem fractionPart_point (hrow : ∀ c ∈ row, c.isDigit = true) (hbegun : row ≠ [])
    (hrest : ∀ c ∈ rest.head?, c.isDigit = false) :
    fractionPart offset ('.' :: (row ++ rest)) = (row, offset + 1 + row.length, rest) := by
  have hnone : row.isEmpty = false := List.isEmpty_eq_false_iff.mpr hbegun
  simp [fractionPart, digitsOf_append hrow hrest, hnone]

theorem fractionPart_none (hrest : ∀ c ∈ rest.head?, c ≠ '.') : fractionPart offset rest = ([], offset, rest) := by
  unfold fractionPart
  split
  · next more => exact absurd rfl (hrest '.' rfl)
  · rfl

theorem Ends.head_ne (h : Ends rest) {c : Char} (hc : isNumeric c = true) : ∀ d ∈ rest.head?, d ≠ c := by
  rintro d hd rfl
  rw [h d hd] at hc
  cases hc

theorem unsigned_digits {n : Nat} (d : Digits n) (hplain : d.Plain) (hlimit : d.row.length ≤ integerDigitLimit)
    (hends : Ends rest) (negative : Bool) :
    unsigned start negative offset (d.row ++ rest) =
      .ok (.int (Binary.signed negative n), ⟨offset + d.row.length, rest⟩) := by
  have hnone : d.row.isEmpty = false := List.isEmpty_eq_false_iff.mpr d.begun
  rw [unsigned_eq, wholePart_append d.digits d.begun hplain hends.not_digit]
  dsimp only
  rw [hnone, if_neg Bool.false_ne_true, fractionPart_none (hends.head_ne rfl)]
  dsimp only
  rw [numberOf, exponentPart?_ends hends]
  dsimp only
  rw [List.isEmpty_nil, if_pos rfl, if_neg (not_lt.mpr hlimit), digitValue_eq, d.value]

theorem head?_tail (exponent : Option Int) (hends : Ends rest) :
    ∀ c ∈ (Numeral.tail exponent ++ rest).head?, c.isDigit = false ∧ c ≠ '.' := by
  intro c hc
  cases h : Numeral.tail exponent with
  | nil =>
    rw [h] at hc
    exact ⟨hends.not_digit c hc, hends.head_ne rfl c hc⟩
  | cons d more =>
    rw [h] at hc
    obtain rfl := Numeral.tail_head exponent c (by rw [h]; exact hc)
    exact ⟨rfl, by decide⟩

theorem head?_point (n : Numeral) (hends : Ends rest) :
    ∀ c ∈ (n.point ++ (Numeral.tail n.exponent ++ rest)).head?, c.isDigit = false := by
  intro c hc
  unfold Numeral.point at hc
  split at hc
  · exact (head?_tail n.exponent hends c hc).1
  · cases hc
    rfl

theorem fractionPart_numeral (n : Numeral) (hends : Ends rest) :
    fractionPart offset (n.point ++ (Numeral.tail n.exponent ++ rest)) =
      (n.fraction, offset + n.point.length, Numeral.tail n.exponent ++ rest) := by
  have htail := head?_tail n.exponent hends
  unfold Numeral.point
  split
  · next hnone =>
    rw [List.nil_append, fractionPart_none fun c hc => (htail c hc).2, hnone]
    rfl
  · next hsome =>
    rw [List.cons_append, fractionPart_point n.digits_fraction hsome fun c hc => (htail c hc).1, List.length_cons,
      Nat.add_assoc, Nat.add_comm 1]

theorem numberOf_numeral (n : Numeral) (hends : Ends rest) (negative : Bool) :
    numberOf negative n.whole n.fraction offset (Numeral.tail n.exponent ++ rest) =
      .ok (.float (decimalDouble negative (Nat.ofDigitChars 10 (n.whole ++ n.fraction) 0) n.last),
        ⟨offset + (Numeral.tail n.exponent).length, rest⟩) := by
  unfold numberOf
  rw [digitValue_eq]
  cases h : n.exponent with
  | none =>
    have hfraction : n.fraction.isEmpty = false :=
      List.isEmpty_eq_false_iff.mpr (n.marked.resolve_right fun hne => hne h)
    have hlast : n.last = -(Int.ofNat n.fraction.length) := by simp [Numeral.last, h]
    rw [hlast]
    have htail : Numeral.tail none = [] := rfl
    rw [htail, List.nil_append, exponentPart?_ends hends]
    dsimp only
    rw [hfraction, if_neg Bool.false_ne_true]
    rfl
  | some e =>
    have hlast : n.last = e - Int.ofNat n.fraction.length := by simp [Numeral.last, h]
    rw [exponentPart?_tail e hends, hlast]

theorem unsigned_numeral (n : Numeral) (hplain : n.Plain) (hends : Ends rest) (negative : Bool) :
    unsigned start negative offset (n.text ++ rest) =
      .ok (.float (decimalDouble negative (Nat.ofDigitChars 10 (n.whole ++ n.fraction) 0) n.last),
        ⟨offset + n.text.length, rest⟩) := by
  have hnone : n.whole.isEmpty = false := List.isEmpty_eq_false_iff.mpr n.begun
  have hlength : n.text.length = n.whole.length + (n.point.length + (Numeral.tail n.exponent).length) := by
    simpa using congrArg List.length (n.text_append [])
  rw [unsigned_eq, n.text_append, wholePart_append n.digits_whole n.begun hplain (head?_point n hends)]
  dsimp only
  rw [hnone, if_neg Bool.false_ne_true, fractionPart_numeral n hends]
  dsimp only
  rw [numberOf_numeral n hends, hlength, ← Nat.add_assoc, ← Nat.add_assoc]

end Json

end WalletRouting
