import WalletRouting.Proofs.Json.Scanning
import WalletRouting.Proofs.Keyed
import WalletRouting.Proofs.Value.Parts

/-! # What was written is read

A value that is told by its text is read again as it was, whatever follows the text. The fuel of the reader lasts, since
no part of a text is longer than the whole.
-/
namespace WalletRouting
set_option autoImplicit false

namespace Value

mutual

/-- Whether the value is told by its text: no text or name in it has the halves of a pair side by side, no object has a
name twice, and no integer is too long to be read. -/
def isLegible : Value → Bool
  | .num (.int n) => (Digits.of n.natAbs).row.length ≤ Json.integerDigitLimit
  | .text s => Json.IsJoined s
  | .list xs => allLegible xs
  | .object ms => decide (Keyed.keys ms).Nodup && membersLegible ms
  | .unresolved => false
  | _ => true

def allLegible : List Value → Bool
  | [] => true
  | x :: xs => isLegible x && allLegible xs

def membersLegible : List (String × Value) → Bool
  | [] => true
  | (k, v) :: ms => decide (Json.IsJoined k) && isLegible v && membersLegible ms

end

@[simp] theorem allLegible_eq (xs : List Value) : allLegible xs = xs.all isLegible := by
  induction xs with
  | nil => rfl
  | cons x xs ih => rw [allLegible, ih, List.all_cons]

@[simp] theorem membersLegible_eq (ms : List (String × Value)) :
    membersLegible ms = ms.all fun m => decide (Json.IsJoined m.1) && m.2.isLegible := by
  induction ms with
  | nil => rfl
  | cons m ms ih => rw [membersLegible, ih, List.all_cons]

end Value

namespace Json

variable {fuel offset : Nat} {rest : List Char}

/-- Whether the text of a value is read as the value, whatever follows it. -/
def Reads (v : Value) : Prop :=
  ∀ (fuel offset : Nat) (rest : List Char), (write v).length ≤ fuel → Ends rest →
    value fuel ⟨offset, write v ++ rest⟩ = .ok (v, ⟨offset + (write v).length, rest⟩)

theorem ok_congr {v : Value} {m n : Nat} (h : m = n) :
    (.ok (v, ⟨m, rest⟩) : Except ReadError (Value × Cursor)) = .ok (v, ⟨n, rest⟩) := by rw [h]

/-- A text has a first character, for which there is fuel. -/
theorem Reads.of_succ {v : Value}
    (h : ∀ (fuel offset : Nat) (rest : List Char), (write v).length ≤ fuel + 1 → Ends rest →
      value (fuel + 1) ⟨offset, write v ++ rest⟩ = .ok (v, ⟨offset + (write v).length, rest⟩)) : Reads v := by
  intro fuel offset rest hfuel hends
  obtain ⟨c, more, hv, -⟩ := write_head v
  cases fuel with
  | zero =>
    rw [hv] at hfuel
    cases hfuel
  | succ fuel => exact h fuel offset rest hfuel hends

/-! ## Words and numbers -/

theorem reads_word {word : List Char} {v : Value} (h : (word, v) ∈ words) (hwrite : write v = word) : Reads v := by
  subst hwrite
  apply Reads.of_succ
  intro fuel offset rest _ _
  simp only [words, List.mem_cons, Prod.mk.injEq, List.not_mem_nil, or_false] at h
  rcases h with ⟨hword, rfl⟩ | ⟨hword, rfl⟩ | ⟨hword, rfl⟩ | ⟨hword, rfl⟩ | ⟨hword, rfl⟩ | ⟨hword, rfl⟩ <;>
    rw [hword] <;> rfl

theorem value_signed {c : Char} {more : List Char} (hc : c.isDigit = true) (negative : Bool) :
    value (fuel + 1) ⟨offset, Layout.sign negative ++ c :: more⟩ =
      unsigned offset negative (offset + (Layout.sign negative).length) (c :: more) := by
  have hne (d : Char) (hd : d.isDigit = false) : d ≠ c := by
    rintro rfl
    rw [hc] at hd
    cases hd
  have hletters : 'n' ≠ c ∧ 't' ≠ c ∧ 'f' ≠ c ∧ 'N' ≠ c ∧ 'I' ≠ c :=
    ⟨hne _ rfl, hne _ rfl, hne _ rfl, hne _ rfl, hne _ rfl⟩
  have hminus := hne '-' rfl
  cases negative with
  | false =>
    have hword : word? offset (c :: more) = none := by simp [word?, words, dropPrefix?, hletters, hminus]
    simp [Layout.sign, value, hword, (hne '"' rfl).symm, (hne '[' rfl).symm, (hne '\x7b' rfl).symm, hminus.symm]
  | true =>
    have hword : word? offset ('-' :: c :: more) = none := by simp [word?, words, dropPrefix?, hletters]
    simp [Layout.sign, value, hword]

theorem toList_repr (n : Int) : n.repr.toList = Layout.sign (decide (n < 0)) ++ (Digits.of n.natAbs).row := by
  rw [Int.repr_eq_if]
  by_cases hn : n < 0
  · have habs : (-n).toNat = n.natAbs := by omega
    rw [if_neg (not_le.mpr hn), decide_eq_true hn, String.toList_append, Nat.toList_repr, habs]
    rfl
  · have habs : n.toNat = n.natAbs := by omega
    rw [if_pos (not_lt.mp hn), decide_eq_false hn, Nat.toList_repr, habs]
    rfl

theorem reads_int {n : Int} (hlimit : (Digits.of n.natAbs).row.length ≤ integerDigitLimit) : Reads (.int n) := by
  apply Reads.of_succ
  intro fuel offset rest _ hends
  obtain ⟨c, more, hrow⟩ := List.exists_cons_of_ne_nil (Digits.of n.natAbs).begun
  have hc : c.isDigit = true := (Digits.of n.natAbs).digits c (by rw [hrow]; exact List.mem_cons_self)
  have hwrite : write (.int n) = Layout.sign (decide (n < 0)) ++ (Digits.of n.natAbs).row := toList_repr n
  rw [hwrite, List.append_assoc, List.length_append, ← Nat.add_assoc, hrow, List.cons_append, value_signed hc,
    ← List.cons_append, ← hrow, unsigned_digits _ (Digits.plain_of _) hlimit hends, Binary.signed_natAbs]

theorem reads_finite {x : Double} {negative : Bool} {m : Nat} {e : Int} (hx : Binary.ofFloat x = .finite negative m e) :
    Reads (.float x) := by
  apply Reads.of_succ
  intro fuel offset rest _ hends
  obtain ⟨n, htext, hnear, hlast, hplain⟩ := Double.exists_numeral_exactText hx
  obtain ⟨c, more, hrow, hc⟩ := n.text_head
  have hdouble : decimalDouble negative (Nat.ofDigitChars 10 (n.whole ++ n.fraction) 0) n.last = x :=
    Double.decimalDouble_of_near hx (by omega) hnear
  have hwrite : write (.float x) = Layout.sign negative ++ n.text := by
    change (numberText (.float x)).toList = _
    simp only [numberText, hx, htext]
  rw [hwrite, List.append_assoc, List.length_append, ← Nat.add_assoc, hrow, List.cons_append, value_signed hc,
    ← List.cons_append, ← hrow, unsigned_numeral n hplain hends, hdouble]

theorem reads_double (x : Double) : Reads (.float x) := by
  cases hx : Binary.ofFloat x with
  | finite negative m e => exact reads_finite hx
  | infinite negative =>
    have hx' : x = if negative then -1.0 / 0.0 else 1.0 / 0.0 := by
      apply Double.ofFloat_injective
      rw [hx]
      cases negative <;> decide
    have hwrite : write (.float x) = (if negative then "-Infinity" else "Infinity").toList := by
      change (numberText (.float x)).toList = _
      simp only [numberText, hx]
    refine reads_word ?_ hwrite
    rw [hx']
    cases negative <;> simp [words]
  | nan =>
    have hx' : x = 0.0 / 0.0 := by
      apply Double.ofFloat_injective
      rw [hx]
      decide
    have hwrite : write (.float x) = "NaN".toList := by
      change (numberText (.float x)).toList = _
      simp only [numberText, hx]
    refine reads_word ?_ hwrite
    rw [hx']
    simp [words]

theorem value_text {s : String} {c : Cursor} {chars : List Char}
    (h : textRest offset [] (offset + 1) chars = .ok (s, c)) :
    value (fuel + 1) ⟨offset, '"' :: chars⟩ = .ok (.text s, c) := by
  simp only [value, h, bind, Except.bind]
  rfl

theorem reads_text {s : String} (hs : IsJoined s) : Reads (.text s) := by
  apply Reads.of_succ
  intro fuel offset rest _ _
  obtain ⟨body, hquoted, hread⟩ := exists_quoted s
  have hwrite : write (.text s) = '"' :: body := hquoted
  rw [hwrite, List.cons_append, value_text (hread offset (offset + 1) rest), hs.eq, List.length_cons]
  exact ok_congr (by omega)

/-! ## Lists and objects -/

theorem skip_of_head {c : Char} (hc : isBlank c = false) :
    Cursor.skip ⟨offset, c :: rest⟩ = ⟨offset, c :: rest⟩ := by
  unfold Cursor.skip skipBlanks
  rw [hc, if_neg Bool.false_ne_true]

theorem isBlank_of_kind {c : Char} {k : Kind} (hc : kindFrom c = some k) : isBlank c = false := by
  rw [← Bool.not_eq_true]
  intro hblank
  simp only [isBlank, Bool.or_eq_true, decide_eq_true_eq] at hblank
  rcases hblank with ((rfl | rfl) | rfl) | rfl <;> cases hc

theorem skip_write (v : Value) (offset : Nat) (rest : List Char) :
    Cursor.skip ⟨offset, write v ++ rest⟩ = ⟨offset, write v ++ rest⟩ := by
  obtain ⟨c, more, hv, hc⟩ := write_head v
  rw [hv, List.cons_append, skip_of_head (isBlank_of_kind hc)]

theorem items_last {v : Value} {done : List Value} {chars : List Char} {next : Nat}
    (hread : value fuel ⟨offset, chars⟩ = .ok (v, ⟨next, ']' :: rest⟩)) :
    items (fuel + 1) done ⟨offset, chars⟩ = .ok (.list (v :: done).reverse, ⟨next + 1, rest⟩) := by
  rw [items, hread]
  rfl

theorem items_more {v : Value} {done : List Value} {chars : List Char} {next : Nat}
    (hread : value fuel ⟨offset, chars⟩ = .ok (v, ⟨next, ',' :: rest⟩)) :
    items (fuel + 1) done ⟨offset, chars⟩ = items fuel (v :: done) (Cursor.skip ⟨next + 1, rest⟩) := by
  rw [items, hread]
  rfl

theorem members_last {key : String} {v : Value} {done : Keyed Value} {body chars : List Char} {mid next : Nat}
    (hkey : textRest offset [] (offset + 1) body = .ok (key, ⟨mid, ':' :: chars⟩))
    (hread : value fuel (Cursor.skip ⟨mid + 1, chars⟩) = .ok (v, ⟨next, '\x7d' :: rest⟩)) :
    members (fuel + 1) done ⟨offset, '"' :: body⟩ = .ok (.object (done.put key v), ⟨next + 1, rest⟩) := by
  have hcolon : Cursor.skip ⟨mid, ':' :: chars⟩ = ⟨mid, ':' :: chars⟩ := skip_of_head rfl
  have hclose : Cursor.skip ⟨next, '\x7d' :: rest⟩ = ⟨next, '\x7d' :: rest⟩ := skip_of_head rfl
  simp only [members, hkey, bind, Except.bind, hcolon, hread, hclose]

theorem members_more {key : String} {v : Value} {done : Keyed Value} {body chars : List Char} {mid next : Nat}
    (hkey : textRest offset [] (offset + 1) body = .ok (key, ⟨mid, ':' :: chars⟩))
    (hread : value fuel (Cursor.skip ⟨mid + 1, chars⟩) = .ok (v, ⟨next, ',' :: rest⟩)) :
    members (fuel + 1) done ⟨offset, '"' :: body⟩ =
      members fuel (done.put key v) (Cursor.skip ⟨next + 1, rest⟩) := by
  have hcolon : Cursor.skip ⟨mid, ':' :: chars⟩ = ⟨mid, ':' :: chars⟩ := skip_of_head rfl
  have hcomma : Cursor.skip ⟨next, ',' :: rest⟩ = ⟨next, ',' :: rest⟩ := skip_of_head rfl
  simp only [members, hkey, bind, Except.bind, hcolon, hread, hcomma]

theorem ends_cons {c : Char} (hc : isNumeric c = false) : Ends (c :: rest) := by
  rintro d hd
  cases hd
  exact hc

section Row

variable {α : Type} (put : α → List Char) (x y : α) (ys : List α)

theorem row_cons_cons : row ((x :: y :: ys).map put) = put x ++ ',' :: row ((y :: ys).map put) := rfl

theorem length_row_cons_cons :
    (row ((x :: y :: ys).map put)).length = (put x).length + (row ((y :: ys).map put)).length + 1 := by
  rw [row_cons_cons, List.length_append, List.length_cons, Nat.add_assoc]

end Row

theorem items_row {xs : List Value} (hne : xs ≠ []) (hxs : ∀ x ∈ xs, Reads x) {done : List Value}
    (hfuel : (row (xs.map write)).length < fuel) :
    items fuel done ⟨offset, row (xs.map write) ++ ']' :: rest⟩ =
      .ok (.list (done.reverse ++ xs), ⟨offset + (row (xs.map write)).length + 1, rest⟩) := by
  induction xs generalizing done offset fuel with
  | nil => exact absurd rfl hne
  | cons x xs ih =>
    rw [List.forall_mem_cons] at hxs
    obtain ⟨fuel, rfl⟩ := Nat.exists_eq_add_one_of_ne_zero (Nat.ne_zero_of_lt hfuel)
    cases xs with
    | nil =>
      have hread := hxs.1 fuel offset (']' :: rest) (Nat.le_of_lt_succ hfuel) (ends_cons rfl)
      rw [List.map_singleton, row, items_last hread, List.reverse_cons]
    | cons y ys =>
      rw [length_row_cons_cons] at hfuel ⊢
      have hread := hxs.1 fuel offset (',' :: (row ((y :: ys).map write) ++ ']' :: rest)) (by omega) (ends_cons rfl)
      have hskip (offset : Nat) : Cursor.skip ⟨offset, row ((y :: ys).map write) ++ ']' :: rest⟩ =
          ⟨offset, row ((y :: ys).map write) ++ ']' :: rest⟩ := by
        rw [List.map_cons, row_cons, List.append_assoc, skip_write]
      rw [row_cons_cons, List.append_assoc, List.cons_append, items_more hread, hskip,
        ih (List.cons_ne_nil y ys) hxs.2 (by omega), List.reverse_cons, List.append_assoc, List.singleton_append]
      exact ok_congr (by omega)

theorem exists_putMember (m : String × Value) :
    ∃ body, (putMember m).length = body.length + 2 + (write m.2).length ∧
      (∀ rest, putMember m ++ rest = '"' :: (body ++ ':' :: (write m.2 ++ rest))) ∧
      ∀ (offset : Nat) (rest : List Char),
        textRest offset [] (offset + 1) (body ++ rest) = .ok (joined m.1, ⟨offset + 1 + body.length, rest⟩) := by
  obtain ⟨body, hquoted, hread⟩ := exists_quoted m.1
  refine ⟨body, ?_, fun rest => ?_, fun offset rest => hread offset (offset + 1) rest⟩
  · rw [putMember, hquoted, List.length_append, List.length_cons, List.length_cons]
    omega
  · rw [putMember, hquoted, List.cons_append, List.cons_append, List.append_assoc, List.cons_append]

theorem members_row {ms : List (String × Value)} (hne : ms ≠ []) (hms : ∀ m ∈ ms, IsJoined m.1 ∧ Reads m.2)
    {done : Keyed Value} (hnames : (Keyed.keys (done ++ ms)).Nodup) (hfuel : (row (ms.map putMember)).length < fuel) :
    members fuel done ⟨offset, row (ms.map putMember) ++ '\x7d' :: rest⟩ =
      .ok (.object (done ++ ms), ⟨offset + (row (ms.map putMember)).length + 1, rest⟩) := by
  induction ms generalizing done offset fuel with
  | nil => exact absurd rfl hne
  | cons m ms ih =>
    obtain ⟨⟨hjoined, hreads⟩, hms⟩ := List.forall_mem_cons.mp hms
    obtain ⟨fuel, rfl⟩ := Nat.exists_eq_add_one_of_ne_zero (Nat.ne_zero_of_lt hfuel)
    obtain ⟨body, hlength, hbody, hkey⟩ := exists_putMember m
    have hput : done.put m.1 m.2 = done ++ [m] := by
      apply Keyed.put_of_not_mem
      rw [Keyed.keys, List.map_append, List.nodup_append] at hnames
      exact fun hm => hnames.2.2 m.1 hm m.1 List.mem_cons_self rfl
    cases ms with
    | nil =>
      have hlast : (write m.2).length ≤ fuel := by
        rw [List.map_singleton, row, hlength] at hfuel
        omega
      have hread := hreads fuel (offset + 1 + body.length + 1) ('\x7d' :: rest) hlast (ends_cons rfl)
      rw [← skip_write] at hread
      rw [List.map_singleton, row, hbody, members_last (hkey offset _) hread, hjoined.eq, hput, hlength]
      exact ok_congr (by omega)
    | cons n ns =>
      rw [length_row_cons_cons, hlength] at hfuel ⊢
      have hread := hreads fuel (offset + 1 + body.length + 1)
        (',' :: (row ((n :: ns).map putMember) ++ '\x7d' :: rest)) (by omega) (ends_cons rfl)
      rw [← skip_write] at hread
      have hskip (offset : Nat) : Cursor.skip ⟨offset, row ((n :: ns).map putMember) ++ '\x7d' :: rest⟩ =
          ⟨offset, row ((n :: ns).map putMember) ++ '\x7d' :: rest⟩ := by
        obtain ⟨body, -, hbody, -⟩ := exists_putMember n
        rw [List.map_cons, row_cons, List.append_assoc, hbody, skip_of_head rfl]
      have hnames' : (Keyed.keys (done ++ [m] ++ n :: ns)).Nodup := by rwa [List.append_assoc, List.singleton_append]
      rw [row_cons_cons, List.append_assoc, List.cons_append, hbody, members_more (hkey offset _) hread, hskip,
        hjoined.eq, hput, ih (List.cons_ne_nil n ns) hms hnames' (by omega), List.append_assoc, List.singleton_append]
      exact ok_congr (by omega)

theorem value_items {c : Char} (hblank : isBlank c = false) (hclose : c ≠ ']') :
    value (fuel + 1) ⟨offset, '[' :: c :: rest⟩ = items fuel [] ⟨offset + 1, c :: rest⟩ := by
  simp only [value, skip_of_head hblank]
  split
  · next heq => exact absurd (List.cons.inj heq).1 hclose
  · rfl

theorem value_members :
    value (fuel + 1) ⟨offset, '\x7b' :: '"' :: rest⟩ = members fuel [] ⟨offset + 1, '"' :: rest⟩ := by
  have hquote : Cursor.skip ⟨offset + 1, '"' :: rest⟩ = ⟨offset + 1, '"' :: rest⟩ := skip_of_head rfl
  simp only [value, hquote]
  rfl

theorem reads_list {xs : List Value} (hxs : ∀ x ∈ xs, Reads x) : Reads (.list xs) := by
  apply Reads.of_succ
  intro fuel offset rest hfuel _
  rw [write_list, List.length_cons, List.length_append, List.length_singleton] at hfuel ⊢
  rw [List.cons_append, List.append_assoc, List.singleton_append]
  cases xs with
  | nil => rfl
  | cons x xs =>
    obtain ⟨c, more, hc, hkind⟩ := write_head x
    have hrow : row ((x :: xs).map write) ++ ']' :: rest = c :: (more ++ (behind (xs.map write) ++ ']' :: rest)) := by
      rw [List.map_cons, row_cons, hc, List.append_assoc, List.cons_append]
    have hclose : c ≠ ']' := by
      rintro rfl
      cases hkind
    rw [hrow, value_items (isBlank_of_kind hkind) hclose, ← hrow, items_row (List.cons_ne_nil x xs) hxs (by omega),
      List.reverse_nil, List.nil_append]
    exact ok_congr (by omega)

theorem reads_object {ms : List (String × Value)} (hms : ∀ m ∈ ms, IsJoined m.1 ∧ Reads m.2)
    (hnames : (Keyed.keys ms).Nodup) : Reads (.object ms) := by
  apply Reads.of_succ
  intro fuel offset rest hfuel _
  rw [write_object, List.length_cons, List.length_append, List.length_singleton] at hfuel ⊢
  rw [List.cons_append, List.append_assoc, List.singleton_append]
  cases ms with
  | nil => rfl
  | cons m ms =>
    obtain ⟨body, -, hbody, -⟩ := exists_putMember m
    have hrow : row ((m :: ms).map putMember) ++ '\x7d' :: rest =
        '"' :: (body ++ ':' :: (write m.2 ++ (behind (ms.map putMember) ++ '\x7d' :: rest))) := by
      rw [List.map_cons, row_cons, List.append_assoc, hbody]
    rw [hrow, value_members, ← hrow, members_row (List.cons_ne_nil m ms) hms hnames (by omega), List.nil_append]
    exact ok_congr (by omega)

theorem reads_of_isLegible {v : Value} (h : v.isLegible = true) : Reads v := by
  induction v using Value.induct with
  | null => exact reads_word List.mem_cons_self rfl
  | bool b =>
    refine reads_word ?_ (write_bool b)
    cases b <;> simp [words]
  | num n =>
    cases n with
    | int k => exact reads_int (of_decide_eq_true h)
    | float x => exact reads_double x
  | text s => exact reads_text (of_decide_eq_true h)
  | list xs ih =>
    rw [Value.isLegible, Value.allLegible_eq, List.all_eq_true] at h
    exact reads_list fun x hx => ih x hx (h x hx)
  | object ms ih =>
    rw [Value.isLegible, Value.membersLegible_eq, Bool.and_eq_true, List.all_eq_true, decide_eq_true_eq] at h
    refine reads_object (fun m hm => ?_) h.1
    have hm' := h.2 m hm
    rw [Bool.and_eq_true, decide_eq_true_eq] at hm'
    exact ⟨hm'.1, ih m hm hm'.2⟩
  | unresolved => cases h

/-- A value that is told by its text is read again as it was. -/
theorem read_compact {v : Value} (h : v.isLegible = true) : read v.compact = .ok v := by
  have hread := reads_of_isLegible h ((write v).length + 1) 0 [] (Nat.le_succ _) nofun
  have hskip := skip_write v 0 []
  rw [List.append_nil] at hread hskip
  unfold read Value.compact
  rw [String.toList_ofList, readChars, hskip, hread]
  rfl

/-! ## Bytes -/

theorem toList_loop (bytes : ByteArray) (i : Nat) (done : List UInt8) :
    ByteArray.toList.loop bytes i done = done.reverse ++ bytes.data.toList.drop i := by
  fun_induction ByteArray.toList.loop bytes i done with
  | case1 i done hlt ih =>
    have hi : i < bytes.data.toList.length := hlt
    have hget : bytes.get! i = bytes.data.toList[i] := getElem!_pos bytes.data i hlt
    rw [ih, List.drop_eq_getElem_cons hi, hget, List.reverse_cons, List.append_assoc, List.singleton_append]
  | case2 i done hge => rw [List.drop_eq_nil_of_le (not_lt.mp hge), List.append_nil]

theorem toList_toUTF8 (cs : List Char) : (String.ofList cs).toUTF8.toList = cs.flatMap String.utf8EncodeChar := by
  have hdata : (String.ofList cs).toUTF8.data.toList = cs.flatMap String.utf8EncodeChar := by
    rw [String.toUTF8, String.toByteArray_ofList, List.utf8Encode, List.toList_data_toByteArray]
  rw [ByteArray.toList, toList_loop, List.drop_zero, hdata]
  rfl

def IsAscii (cs : List Char) : Prop := ∀ c ∈ cs, 0 < c.toNat ∧ c.toNat < 128

theorem pointsOf_of_isAscii {cs : List Char} (h : IsAscii cs) : Text.pointsOf cs = cs.map Char.toNat := by
  induction cs with
  | nil => rfl
  | cons c cs ih =>
    obtain ⟨⟨_, hc⟩, hcs⟩ := List.forall_mem_cons.mp h
    have hmark : c ≠ Text.mark := by
      rintro rfl
      exact absurd hc (by decide)
    have hreserved : ¬Text.isReserved c.toNat = true := by
      rw [Text.isReserved_iff]
      omega
    rw [Text.pointsOf_cons hmark, Text.pointOf, if_neg hreserved, ih hcs, List.map_cons]

theorem utf8_of_isAscii {cs : List Char} (h : IsAscii cs) : ∀ b ∈ cs.flatMap String.utf8EncodeChar, b ≠ 0 := by
  intro b hb
  obtain ⟨c, hc, hb⟩ := List.mem_flatMap.mp hb
  obtain ⟨hpos, hlt⟩ := h c hc
  have hval : c.val.toNat = c.toNat := rfl
  have hsize : c.utf8Size = 1 := by
    rw [Char.utf8Size_eq_one_iff]
    exact UInt32.le_iff_toNat_le.mpr (by rw [hval]; exact Nat.le_of_lt_succ hlt)
  rw [String.utf8EncodeChar_eq_singleton hsize, List.mem_singleton] at hb
  rw [hb]
  intro hzero
  have hbyte : c.val.toNat % 2 ^ 8 = 0 := by
    rw [← UInt32.toNat_toUInt8, hzero]
    rfl
  omega

theorem Encoding.ofBytes_of_ne_zero {bytes : List UInt8} (h : ∀ b ∈ bytes, b ≠ 0) : Encoding.ofBytes bytes = .utf8 := by
  unfold Encoding.ofBytes
  split
  · simp only [List.forall_mem_cons] at h
    rw [if_neg h.1, if_neg h.2.1]
  · simp only [List.forall_mem_cons] at h
    rw [if_neg h.1, if_neg h.2.1]
  · rfl

theorem decoded?_of_isAscii {cs : List Char} (h : IsAscii cs) :
    decoded? (String.ofList cs) = some (String.ofList cs) := by
  have hchars : Text.chars (String.ofList cs) = cs := by
    rw [Text.chars, Text.points, String.toList_ofList, pointsOf_of_isAscii h, List.map_map]
    exact (List.map_congr_left fun c _ => Char.ofNat_toNat c).trans (List.map_id _)
  have hmark : withoutMark cs = cs := by
    unfold withoutMark
    split
    · exact absurd (h _ List.mem_cons_self).2 (by decide)
    · rfl
  unfold decoded?
  rw [hchars]
  dsimp only
  rw [toList_toUTF8, Encoding.ofBytes_of_ne_zero (utf8_of_isAscii h)]
  dsimp only
  rw [String.toList_ofList, hmark]

theorem ascii_of_isNumeric {c : Char} (h : isNumeric c = true) : 0 < c.toNat ∧ c.toNat < 128 := by
  have hval : c.val.toNat = c.toNat := rfl
  simp only [isNumeric, Char.isAlphanum, Char.isAlpha, Char.isUpper, Char.isLower, Char.isDigit, Bool.or_eq_true,
    Bool.and_eq_true, decide_eq_true_eq, ge_iff_le, UInt32.le_iff_toNat_le, hval] at h
  rcases h with ((((⟨h, h'⟩ | ⟨h, h'⟩) | ⟨h, h'⟩) | rfl) | rfl) | rfl
  · exact ⟨Nat.lt_of_lt_of_le (by decide) h, Nat.lt_of_le_of_lt h' (by decide)⟩
  · exact ⟨Nat.lt_of_lt_of_le (by decide) h, Nat.lt_of_le_of_lt h' (by decide)⟩
  · exact ⟨Nat.lt_of_lt_of_le (by decide) h, Nat.lt_of_le_of_lt h' (by decide)⟩
  all_goals decide

theorem IsAscii.append {cs ds : List Char} (hc : IsAscii cs) (hd : IsAscii ds) : IsAscii (cs ++ ds) :=
  List.forall_mem_append.mpr ⟨hc, hd⟩

theorem IsAscii.cons {c : Char} {cs : List Char} (hc : 0 < c.toNat ∧ c.toNat < 128) (hcs : IsAscii cs) :
    IsAscii (c :: cs) := List.forall_mem_cons.mpr ⟨hc, hcs⟩

theorem isAscii_escape {u : Nat} (hu : u < 65536) : IsAscii (escape u) := by
  have hhex : ∀ n < 16, 0 < (hexDigit n).toNat ∧ (hexDigit n).toNat < 128 := by decide
  rcases escape_cases hu with ⟨c, d, hescape, hd, -⟩ | ⟨c, hescape, -, -, hlow, hhigh, -⟩ | hescape
  · rw [hescape]
    refine .cons (by decide) (.cons ?_ nofun)
    unfold simpleEscape? at hd
    split_ifs at hd with h h h h h h
    · rcases h with rfl | rfl | rfl <;> decide
    all_goals
      subst h
      decide
  · rw [hescape]
    exact .cons ⟨by omega, by omega⟩ nofun
  · rw [hescape]
    refine .cons (by decide) (.cons (by decide) (.cons ?_ (.cons ?_ (.cons ?_ (.cons ?_ nofun)))))
    all_goals exact hhex _ (by omega)

theorem isAscii_quoted (s : String) : IsAscii (quoted s) := by
  rw [quoted_eq]
  refine .cons (by decide) (.append ?_ (.cons (by decide) nofun))
  intro c hc
  obtain ⟨u, hu, hc⟩ := List.mem_flatMap.mp hc
  exact isAscii_escape (Text.units_lt s u hu) c hc

theorem isAscii_row {α : Type} {put : α → List Char} {xs : List α} (h : ∀ x ∈ xs, IsAscii (put x)) :
    IsAscii (row (xs.map put)) := by
  induction xs with
  | nil => exact nofun
  | cons x xs ih =>
    rw [List.forall_mem_cons] at h
    cases xs with
    | nil => exact h.1
    | cons y ys => exact h.1.append (.cons (by decide) (ih h.2))

theorem isAscii_write (v : Value) : IsAscii (write v) := by
  induction v using Value.induct with
  | null =>
    change IsAscii ['n', 'u', 'l', 'l']
    simp [IsAscii]
  | bool b =>
    rw [write_bool]
    cases b <;> simp [IsAscii]
  | unresolved =>
    change IsAscii "Unresolved".toList
    simp [IsAscii]
  | num n => exact fun c hc => ascii_of_isNumeric (isNumeric_numberText n c hc)
  | text s => exact isAscii_quoted s
  | list xs ih =>
    rw [write_list]
    exact .cons (by decide) ((isAscii_row ih).append (.cons (by decide) nofun))
  | object ms ih =>
    rw [write_object]
    refine .cons (by decide) ((isAscii_row fun m hm => ?_).append (.cons (by decide) nofun))
    exact (isAscii_quoted m.1).append (.cons (by decide) (ih m hm))

theorem decoded?_compact (v : Value) : decoded? v.compact = some v.compact := decoded?_of_isAscii (isAscii_write v)

end Json

end WalletRouting
