import WalletRouting.Value.Basic

/-! # Reading JSON

A reader over the characters that are left, with the offset of the next one, so that a refusal names
where it happened. Besides standard JSON it takes the words `NaN`, `Infinity` and `-Infinity`. A key
that occurs twice keeps its first place and its last value. An escape of half a surrogate pair that is
no part of a pair reads as that half. Offsets count points.
-/
namespace WalletRouting
set_option autoImplicit false

namespace Json

inductive ReadError where
  | malformed (offset : Nat)
  | oversizedInteger
  deriving DecidableEq, Repr

structure Cursor where
  offset : Nat
  rest : List Char

/-- Integers of more digits than this are refused. -/
def integerDigitLimit : Nat := 4300

def isBlank (c : Char) : Bool := c = ' ' || c = '\t' || c = '\n' || c = '\r'

def skipBlanks (offset : Nat) : List Char → Cursor
  | [] => ⟨offset, []⟩
  | c :: rest => if isBlank c then skipBlanks (offset + 1) rest else ⟨offset, c :: rest⟩

def Cursor.skip (c : Cursor) : Cursor := skipBlanks c.offset c.rest

def hexValue? (c : Char) : Option Nat :=
  if '0' ≤ c ∧ c ≤ '9' then some (c.toNat - 48)
  else if 'a' ≤ c ∧ c ≤ 'f' then some (c.toNat - 87)
  else if 'A' ≤ c ∧ c ≤ 'F' then some (c.toNat - 55)
  else none

def unit? (a b c d : Char) : Option Nat := do
  let a ← hexValue? a
  let b ← hexValue? b
  let c ← hexValue? c
  let d ← hexValue? d
  return ((a * 16 + b) * 16 + c) * 16 + d

def isHighUnit (n : Nat) : Bool := 55296 ≤ n && n < 56320

def isLowUnit (n : Nat) : Bool := 56320 ≤ n && n < 57344

def pairPoint (high low : Nat) : Nat := 65536 + (high - 55296) * 1024 + (low - 56320)

/-- Characters in reverse, with a point before them. -/
def pushPoint (point : Nat) (done : List Char) : List Char := (Text.ofPoint point).reverse ++ done

def simpleEscape? (c : Char) : Option Char :=
  if c = '"' ∨ c = '\\' ∨ c = '/' then some c
  else if c = 'b' then some '\x08'
  else if c = 'f' then some '\x0c'
  else if c = 'n' then some '\n'
  else if c = 'r' then some '\r'
  else if c = 't' then some '\t'
  else none

/-- The rest of a string whose opening quote stood at `start`; `offset` is that of the next character. -/
def textRest (start : Nat) (done : List Char) (offset : Nat) : List Char → Except ReadError (String × Cursor)
  | [] => .error (.malformed start)
  | '"' :: rest => .ok (String.ofList done.reverse, ⟨offset + 1, rest⟩)
  | '\\' :: 'u' :: a :: b :: c :: d :: '\\' :: 'u' :: e :: f :: g :: h :: next :: rest =>
    match unit? a b c d with
    | none => .error (.malformed (offset + 1))
    | some high =>
      if isHighUnit high then
        match unit? e f g h with
        | none => .error (.malformed (offset + 7))
        | some low =>
          if isLowUnit low then textRest start (pushPoint (pairPoint high low) done) (offset + 12) (next :: rest)
          else textRest start (pushPoint high done) (offset + 6) ('\\' :: 'u' :: e :: f :: g :: h :: next :: rest)
      else
        textRest start (pushPoint high done) (offset + 6) ('\\' :: 'u' :: e :: f :: g :: h :: next :: rest)
  | '\\' :: 'u' :: a :: b :: c :: d :: next :: rest =>
    match unit? a b c d with
    | none => .error (.malformed (offset + 1))
    | some n => textRest start (pushPoint n done) (offset + 6) (next :: rest)
  | '\\' :: 'u' :: _ => .error (.malformed (offset + 1))
  | '\\' :: c :: rest =>
    match simpleEscape? c with
    | none => .error (.malformed offset)
    | some c => textRest start (c :: done) (offset + 2) rest
  | ['\\'] => .error (.malformed start)
  | c :: rest =>
    if c.toNat < 32 then .error (.malformed offset)
    else if c = Text.mark then
      match rest with
      | [] => .error (.malformed start)
      | d :: rest => textRest start (d :: c :: done) (offset + 1) rest
    else textRest start (c :: done) (offset + 1) rest

def digitsOf : List Char → List Char × List Char
  | [] => ([], [])
  | c :: rest =>
    if c.isDigit then
      let (more, left) := digitsOf rest
      (c :: more, left)
    else ([], c :: rest)

def digitValue (digits : List Char) : Nat := digits.foldl (fun n c => n * 10 + (c.toNat - 48)) 0

/-- The double nearest to `digits * 10 ^ exponent`; far exponents are settled without computing the power. -/
def decimalDouble (negative : Bool) (digits : Nat) (exponent : Int) : Double :=
  let magnitude : Double :=
    if digits = 0 then 0
    else
      let top := Int.ofNat (Nat.log2 digits) + exponent * 3
      if 0 ≤ exponent ∧ 1100 < top then 1.0 / 0.0
      else if exponent < 0 ∧ Int.ofNat (Nat.log2 digits) + exponent * 3 < -1200 then 0
      else
        match exponent with
        | .ofNat k => Float.ofScientific digits false k
        | .negSucc k => Float.ofScientific digits true (k + 1)
  if negative then -magnitude else magnitude

/-- An exponent part, if one is there in full. -/
def exponentPart? : List Char → Option (Int × Nat × List Char)
  | e :: rest =>
    if e = 'e' ∨ e = 'E' then
      let (negative, signLength, rest) :=
        match rest with
        | '-' :: more => (true, 1, more)
        | '+' :: more => (false, 1, more)
        | more => (false, 0, more)
      let (digits, left) := digitsOf rest
      if digits.isEmpty then none
      else some (Binary.signed negative (digitValue digits), 1 + signLength + digits.length, left)
    else none
  | [] => none

/-- A number without its sign; `start` is the offset of the whole number. -/
def unsigned (start : Nat) (negative : Bool) (offset : Nat) (chars : List Char) : Except ReadError (Value × Cursor) :=
  let (digits, rest) : List Char × List Char :=
    match chars with
    | '0' :: rest => (['0'], rest)
    | chars => digitsOf chars
  if digits.isEmpty then .error (.malformed start)
  else
    let offset := offset + digits.length
    let (fraction, offset, rest) : List Char × Nat × List Char :=
      match rest with
      | '.' :: more =>
        let (places, left) := digitsOf more
        if places.isEmpty then ([], offset, rest) else (places, offset + 1 + places.length, left)
      | _ => ([], offset, rest)
    match exponentPart? rest with
    | some (e, length, left) =>
      .ok (.float (decimalDouble negative (digitValue (digits ++ fraction)) (e - Int.ofNat fraction.length)),
        ⟨offset + length, left⟩)
    | none =>
      if fraction.isEmpty then
        if integerDigitLimit < digits.length then .error .oversizedInteger
        else .ok (.int (Binary.signed negative (digitValue digits)), ⟨offset, rest⟩)
      else
        .ok (.float (decimalDouble negative (digitValue (digits ++ fraction)) (-(Int.ofNat fraction.length))),
          ⟨offset, rest⟩)

def dropPrefix? : List Char → List Char → Option (List Char)
  | [], rest => some rest
  | w :: word, c :: rest => if w = c then dropPrefix? word rest else none
  | _ :: _, [] => none

def words : List (List Char × Value) :=
  [("null".toList, .null), ("true".toList, .bool true), ("false".toList, .bool false),
   ("NaN".toList, .float (0.0 / 0.0)), ("Infinity".toList, .float (1.0 / 0.0)),
   ("-Infinity".toList, .float (-1.0 / 0.0))]

def word? (offset : Nat) (rest : List Char) : Option (Value × Cursor) :=
  words.findSome? fun (word, v) =>
    (dropPrefix? word rest).map fun left => (v, ⟨offset + word.length, left⟩)

mutual

def value : Nat → Cursor → Except ReadError (Value × Cursor)
  | 0, c => .error (.malformed c.offset)
  | fuel + 1, c =>
    match c.rest with
    | '"' :: rest => do
      let (s, c) ← textRest c.offset [] (c.offset + 1) rest
      return (.text s, c)
    | '[' :: rest =>
      let c := Cursor.skip ⟨c.offset + 1, rest⟩
      match c.rest with
      | ']' :: rest => .ok (.list [], ⟨c.offset + 1, rest⟩)
      | _ => items fuel [] c
    | '\x7b' :: rest =>
      let c := Cursor.skip ⟨c.offset + 1, rest⟩
      match c.rest with
      | '\x7d' :: rest => .ok (.object [], ⟨c.offset + 1, rest⟩)
      | _ => members fuel [] c
    | rest =>
      match word? c.offset rest with
      | some found => .ok found
      | none =>
        match rest with
        | '-' :: more => unsigned c.offset true (c.offset + 1) more
        | _ => unsigned c.offset false c.offset rest

def items : Nat → List Value → Cursor → Except ReadError (Value × Cursor)
  | 0, _, c => .error (.malformed c.offset)
  | fuel + 1, done, c => do
    let (v, c) ← value fuel c
    let c := c.skip
    match c.rest with
    | ']' :: rest => .ok (.list (v :: done).reverse, ⟨c.offset + 1, rest⟩)
    | ',' :: rest => items fuel (v :: done) (Cursor.skip ⟨c.offset + 1, rest⟩)
    | _ => .error (.malformed c.offset)

def members : Nat → Keyed Value → Cursor → Except ReadError (Value × Cursor)
  | 0, _, c => .error (.malformed c.offset)
  | fuel + 1, done, c =>
    match c.rest with
    | '"' :: rest => do
      let (key, c) ← textRest c.offset [] (c.offset + 1) rest
      let c := c.skip
      match c.rest with
      | ':' :: rest =>
        let (v, c) ← value fuel (Cursor.skip ⟨c.offset + 1, rest⟩)
        let c := c.skip
        let done := done.put key v
        match c.rest with
        | '\x7d' :: rest => .ok (.object done, ⟨c.offset + 1, rest⟩)
        | ',' :: rest => members fuel done (Cursor.skip ⟨c.offset + 1, rest⟩)
        | _ => .error (.malformed c.offset)
      | _ => .error (.malformed c.offset)
    | _ => .error (.malformed c.offset)

end

/-- One JSON text, with blanks around it and nothing else. -/
def readChars (chars : List Char) : Except ReadError Value := do
  let (v, c) ← value (chars.length + 1) (Cursor.skip ⟨0, chars⟩)
  let c := c.skip
  if c.rest.isEmpty then .ok v else .error (.malformed c.offset)

def read (s : String) : Except ReadError Value := readChars s.toList

end Json

end WalletRouting
