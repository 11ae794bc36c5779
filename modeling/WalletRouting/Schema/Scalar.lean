import WalletRouting.Json.Reader
import WalletRouting.Schema.Basic
import WalletRouting.Text.Character
import WalletRouting.Text.Half

/-! # Lenient scalars

Numbers and flags may come as texts, and a flag may stand for a number; a text field takes texts only. A text
that is read as something else may not hold half of a surrogate pair.
-/
namespace WalletRouting
set_option autoImplicit false

namespace Schema

def text : Read String
  | .text s => .ok s
  | v => issue .notText v

/-- Reads what a text says, if it is whole. -/
def spelled {α : Type} (s : String) (read : Checked α) : Checked α :=
  if Text.isWhole s then read else issue .brokenText (.text s)

/-- Separators between digits, not at an end and not two together, are dropped. -/
def dropSeparators (chars : List Char) : Option (List Char) :=
  let rec single : List Char → Bool
    | '_' :: '_' :: _ => false
    | _ :: rest => single rest
    | [] => true
  if chars.head? = some '_' ∨ chars.getLast? = some '_' ∨ single chars = false then none
  else some (chars.filter (· ≠ '_'))

def splitSign : List Char → Bool × List Char
  | '-' :: rest => (true, rest)
  | '+' :: rest => (false, rest)
  | rest => (false, rest)

/-- Digits with at most one point, at least one digit, and an optional exponent. -/
def mantissaAndExponent? (chars : List Char) : Option (Nat × Int) :=
  let (whole, rest) := Json.digitsOf chars
  let (places, rest) : List Char × List Char :=
    match rest with
    | '.' :: more => Json.digitsOf more
    | rest => ([], rest)
  if whole.isEmpty ∧ places.isEmpty then none
  else
    let digits := Json.digitValue (whole ++ places)
    let scale := -(Int.ofNat places.length)
    match rest with
    | [] => some (digits, scale)
    | rest =>
      match Json.exponentPart? rest with
      | some (e, _, []) => some (digits, e + scale)
      | _ => none

def plainDouble? (chars : List Char) : Option Double :=
  let (negative, body) := splitSign chars
  let word := body.map Char.toLower
  if word = "inf".toList ∨ word = "infinity".toList then some (if negative then -1.0 / 0.0 else 1.0 / 0.0)
  else if word = "nan".toList then some (0.0 / 0.0)
  else (mantissaAndExponent? body).map fun (digits, e) => Json.decimalDouble negative digits e

/-- A double with blanks around it, or one with separators and no blanks. -/
def doubleOfText? (s : String) : Option Double :=
  match plainDouble? (Text.trim s.toList) with
  | some x => some x
  | none => (dropSeparators s.toList).bind plainDouble?

def double : Read Double
  | .num n =>
    match n.toDouble? with
    | some x => .ok x
    | none => issue .notNumber (.num n)
  | .bool b => .ok (if b then 1.0 else 0.0)
  | .text s => spelled s <|
    match doubleOfText? s with
    | some x => .ok x
    | none => issue .unreadableNumber (.text s)
  | v => issue .notNumber v

/-- A double at least `low`; NaN is not. -/
def doubleFrom (low : Double) : Read Double := fun v =>
  match double v with
  | .ok x => if low ≤ x then .ok x else issue .below v
  | bad => bad

/-- A double between the bounds; the upper one is tested first. -/
def doubleWithin (low high : Double) : Read Double := fun v =>
  match double v with
  | .ok x => if x ≤ high then (if low ≤ x then .ok x else issue .below v) else issue .above v
  | bad => bad

/-- What follows zeros, of which `last` is the latest character; separators among them count as zeros do. A zero
stays where nothing else is left or a point follows, and a minus may follow. -/
def afterZeros (last : Char) : List Char → Option (List Char)
  | [] => some [last]
  | c :: rest =>
    if c = '0' ∨ c = '_' then afterZeros c rest
    else if c.isDigit ∨ c = '-' then some (c :: rest)
    else if c = '.' then some (last :: c :: rest)
    else none

/-- The text of an integer without the zeros in front; it has to start with a digit. -/
def withoutLeadingZeros : List Char → Option (List Char)
  | [] => none
  | c :: rest => if c = '0' then afterZeros c rest else if c.isDigit then some (c :: rest) else none

/-- A point with zeros after it, and nothing else, is dropped. -/
def withoutZeroFraction (chars : List Char) : List Char :=
  match chars.dropWhile (· ≠ '.') with
  | _ :: places => if places ≠ [] ∧ places.all (· = '0') then chars.takeWhile (· ≠ '.') else chars
  | [] => chars

/-- The minus in front, if there is one, and the rest. -/
def splitMinus : List Char → Bool × List Char
  | '-' :: rest => (true, rest)
  | rest => (false, rest)

/-- Whether an integer that begins here has more digits than `Json.integerDigitLimit`, whatever comes after it. -/
def isOversized (chars : List Char) : Bool :=
  let digits := (Json.digitsOf (splitMinus chars).2).1
  digits.head? ≠ some '0' && Json.integerDigitLimit < digits.length

/-- An integer of digits alone behind a minus, with no zero in front. -/
def plainInteger? (chars : List Char) : Option Int :=
  let (negative, body) := splitMinus chars
  let (digits, rest) := Json.digitsOf body
  if digits.isEmpty ∨ rest ≠ [] ∨ Json.integerDigitLimit < digits.length then none
  else if digits.head? = some '0' ∧ digits ≠ ['0'] then none
  else some (Binary.signed negative (Json.digitValue digits))

/-- The text of an integer without what may be left out of it: blanks, a sign, zeros in front, a fraction of zeros and
separators. -/
def tidyInteger? (chars : List Char) : Option (List Char) := do
  let (negative, body) := splitSign (Text.trim chars)
  let body ← withoutLeadingZeros body
  let body := withoutZeroFraction (if negative then '-' :: body else body)
  return (dropSeparators body).getD body

/-- An integer that is too long is told from a text that is none only where nothing stands before its digits. -/
def integerOfText (s : String) : Except Problem Int :=
  if isOversized s.toList then .error .oversizedInteger
  else
    match (tidyInteger? s.toList).bind plainInteger? with
    | some n => .ok n
    | none => .error .unreadableInteger

/-- Doubles from here on, on either side of zero, are not taken for integers. -/
def integralBound : Double := 9223372036854775808.0

def withinIntegralBound (x : Double) : Bool := -integralBound < x && x < integralBound

def integerOfDouble (x : Double) : Except Problem Int :=
  if Double.finite x then
    match Double.whole? x with
    | some n => if withinIntegralBound x then .ok n else .error .oversizedInteger
    | none => .error .fractional
  else .error .notFinite

def orIssue {α : Type} (v : Value) : Except Problem α → Checked α
  | .ok a => .ok a
  | .error p => issue p v

def integer : Read Int
  | .num (.int n) => .ok n
  | .num (.float x) => orIssue (.num (.float x)) (integerOfDouble x)
  | .bool b => .ok (if b then 1 else 0)
  | .text s => spelled s (orIssue (.text s) (integerOfText s))
  | v => issue .notInteger v

def integerFrom (low : Int) : Read Int := fun v =>
  match integer v with
  | .ok n => if low ≤ n then .ok n else issue .below v
  | bad => bad

/-- An integer between the bounds; the upper one is tested first. -/
def integerWithin (low high : Int) : Read Int := fun v =>
  match integer v with
  | .ok n => if n ≤ high then (if low ≤ n then .ok n else issue .below v) else issue .above v
  | bad => bad

def falseWords : List (List Char) := ["0", "off", "f", "false", "n", "no"].map String.toList

def trueWords : List (List Char) := ["1", "on", "t", "true", "y", "yes"].map String.toList

/-- Zero and one are flags; another number is refused as such if it lies where integers are of 64 bits. -/
def flagOfInteger (n : Int) : Except Problem Bool :=
  if n = 0 then .ok false
  else if n = 1 then .ok true
  else if -9223372036854775808 ≤ n ∧ n ≤ 9223372036854775807 then .error .unreadableFlag
  else .error .notFlag

def flagOfDouble (x : Double) : Except Problem Bool :=
  match integerOfDouble x with
  | .ok n => flagOfInteger n
  | .error _ => .error .notFlag

def flagOfText (s : String) : Except Problem Bool :=
  let word := s.toList.map Char.toLower
  if falseWords.contains word then .ok false
  else if trueWords.contains word then .ok true
  else .error .unreadableFlag

def flag : Read Bool
  | .bool b => .ok b
  | .num (.int n) => orIssue (.num (.int n)) (flagOfInteger n)
  | .num (.float x) => orIssue (.num (.float x)) (flagOfDouble x)
  | .text s => spelled s (orIssue (.text s) (flagOfText s))
  | v => issue .notFlag v

/-- One of the named members, by exact name. -/
def member {α : Type} (names : Keyed α) (otherwise : Problem) : Read α
  | .text s => spelled s <|
    match names.get? s with
    | some a => .ok a
    | none => issue otherwise (.text s)
  | v => issue otherwise v

def anything : Read Value := .ok

end Schema

end WalletRouting
