import WalletRouting.Text.NameLetters
import WalletRouting.Text.Character

/-! # International names

A name that is not ASCII is cut into labels at dots. A label is replaced by its ASCII characters, followed by where
in it the others stand and which they are: in ascending order, each as the distance from the one before, written
with digits whose weights adapt to the distances so far.
-/
namespace WalletRouting
set_option autoImplicit false

namespace Address

namespace Label

/-- Thirty-six digits: letters, then decimal digits. -/
def digit (n : Nat) : Char := if n < 26 then Char.ofNat (97 + n) else Char.ofNat (22 + n)

/-- The number of digits that end a number at a place. -/
def threshold (place bias : Nat) : Nat :=
  if place ≤ bias then 1 else if bias + 26 ≤ place then 26 else place - bias

theorem threshold_pos (place bias : Nat) : 0 < threshold place bias := by
  unfold threshold
  split
  · omega
  · split <;> omega

/-- A distance in digits, the lightest first. -/
def distanceDigits (bias place : Nat) (n : Nat) : List Char :=
  let t := threshold place bias
  if h : n < t then [digit n]
  else digit (t + (n - t) % (36 - t)) :: distanceDigits bias (place + 36) ((n - t) / (36 - t))
termination_by n
decreasing_by
  have positive := threshold_pos place bias
  have quotient := Nat.div_le_self (n - threshold place bias) (36 - threshold place bias)
  omega

def biasFrom (bias : Nat) (delta : Nat) : Nat :=
  if 455 < delta then biasFrom (bias + 36) (delta / 35) else bias + 36 * delta / (delta + 38)
termination_by delta
decreasing_by omega

/-- How digits weigh after a distance: the first one counts least, and the more characters stand already the less. -/
def adapted (delta count : Nat) (isFirst : Bool) : Nat :=
  let delta := if isFirst then delta / 700 else delta / 2
  biasFrom 0 (delta + delta / count)

/-- The distances so far in digits, the distance since the last of them, the weights, and how many characters stand. -/
structure Progress where
  digits : List Char
  delta : Nat
  bias : Nat
  placed : Nat

/-- Passes a character of the label while characters `point` are placed. -/
def pass (basic point : Nat) (p : Progress) (c : Nat) : Progress :=
  if c < point then { p with delta := p.delta + 1 }
  else if c = point then
    { digits := p.digits ++ distanceDigits p.bias 36 p.delta
      delta := 0
      bias := adapted p.delta (p.placed + 1) (p.placed = basic)
      placed := p.placed + 1 }
  else p

/-- Places characters in ascending order; those below `next` are placed already. -/
def placeAll (label : List Nat) (basic : Nat) : List Nat → Nat → Progress → Progress
  | [], _, p => p
  | point :: rest, next, p =>
    let p := { p with delta := p.delta + (point - next) * (p.placed + 1) }
    let p := label.foldl (pass basic point) p
    placeAll label basic rest (point + 1) { p with delta := p.delta + 1 }

def insertSorted (n : Nat) : List Nat → List Nat
  | [] => [n]
  | m :: rest => if n < m then n :: m :: rest else if n = m then m :: rest else m :: insertSorted n rest

def encode (label : List Nat) : List Char :=
  let basic := label.filter (· < 128)
  let others := (label.filter (128 ≤ ·)).foldr insertSorted []
  let p := placeAll label basic.length others 128 ⟨[], 0, 72, basic.length⟩
  basic.map Char.ofNat ++ (if basic.isEmpty then [] else ['-']) ++ p.digits

def isSmallOrDigit (point : Nat) : Bool := (97 ≤ point && point ≤ 122) || (48 ≤ point && point ≤ 57)

/-- Characters that may stand only beside certain others: a dot between two letters l, a numeral sign before Greek,
two signs after Hebrew, a dot in a label with Japanese or Chinese characters, and digits of one of two series. -/
def isAllowedHere (label before after : List Nat) (point : Nat) : Bool :=
  if point = 0xb7 then before.getLast? = some 108 && after.head? = some 108
  else if point = 0x375 then after.head?.any fun c => 0x370 ≤ c && c < 0x400
  else if point = 0x5f3 ∨ point = 0x5f4 then before.getLast?.any fun c => 0x591 ≤ c && c < 0x5f5
  else if point = 0x30fb then
    label.any fun c => c ≠ 0x30fb && ((0x3041 ≤ c && c < 0x3100) || (0x3400 ≤ c && c < 0xa000) || 0x20000 ≤ c)
  else if 0x660 ≤ point ∧ point < 0x66a then label.all fun c => !(0x6f0 ≤ c && c < 0x6fa)
  else if 0x6f0 ≤ point ∧ point < 0x6fa then label.all fun c => !(0x660 ≤ c && c < 0x66a)
  else false

def allAllowed (label before : List Nat) : List Nat → Bool
  | [] => true
  | c :: rest =>
    (c = 45 || (if c < 128 then isSmallOrDigit c else Text.isNameCharacter c) ||
      isAllowedHere label before rest c) && allAllowed label (before ++ [c]) rest

def isArabicDigit (point : Nat) : Bool := 0x660 ≤ point && point < 0x66a

def isDigit (point : Nat) : Bool := (48 ≤ point && point ≤ 57) || (0x6f0 ≤ point && point < 0x6fa)

def isFromRight (point : Nat) : Bool :=
  Text.isRightToLeft point && !(Text.isMark point) && !(isDigit point || isArabicDigit point)

/-- A label with characters from right to left, or with Arabic digits, begins with one of those characters, ends with
one of them or with a digit, and holds no letter from left to right and no digits of two kinds. -/
def isDirected (label : List Nat) : Bool :=
  if label.any fun c => isFromRight c || isArabicDigit c then
    label.head?.any isFromRight &&
      label.all (fun c => isFromRight c || Text.isMark c || isArabicDigit c || isDigit c || c = 45) &&
      (label.reverse.dropWhile Text.isMark).head?.any (· ≠ 45) &&
      !(label.any isArabicDigit && label.any isDigit)
  else true

/-- Whether no two characters of a label in a row have to be written as one. -/
def isComposed : List Nat → Bool
  | c :: d :: rest => !(Text.composes c d) && isComposed (d :: rest)
  | _ => true

def isValid (label : List Nat) : Bool :=
  !label.isEmpty && (label.drop 2).take 2 ≠ [45, 45] && label.head? ≠ some 45 && label.getLast? ≠ some 45 &&
    !(label.head?.any Text.isMark) && isComposed label && allAllowed label [] label &&
    isDirected label

/-- What a label that stands for another one begins with. -/
def mark : List Char := ['x', 'n', '-', '-']

/-- A label in ASCII, if names may hold it; no more than 63 characters. -/
def ascii? (label : List Nat) : Option (List Char) :=
  let text : Option (List Char) :=
    if label.all (· < 128) then
      let text := label.map Char.ofNat
      if mark.isPrefixOf text then
        if text.length = 4 ∨ text.getLast? = some '-' ∨ !(label.all fun c => c = 45 || isSmallOrDigit c) then none
        else some text
      else if isValid label then some text
      else none
    else if isValid label then some (mark ++ encode label)
    else none
  text.filter fun text => text.length ≤ 63

def isDot (point : Nat) : Bool := [0x2e, 0x3002, 0xff0e, 0xff61].contains point

end Label

open Label in
/-- A name in ASCII; it may end with a dot, and has 253 characters without it at most. -/
def asciiName? (name : List Nat) : Option (List Char) := do
  let labels := Text.pieces 46 (name.map fun c => if isDot c then 46 else c)
  let isEnded := labels.getLast? = some []
  let texts ← (if isEnded then labels.dropLast else labels).mapM ascii?
  let text := Text.joined '.' texts
  if texts.isEmpty ∨ 253 < text.length then none
  else if isEnded then some (text ++ ['.']) else some text

end Address

end WalletRouting
