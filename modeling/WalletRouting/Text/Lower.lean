import WalletRouting.Text.Half
import WalletRouting.Text.LetterCase

/-! # Lower case

The full mapping: a capital I with a dot becomes two characters, and a capital sigma takes its final
form where a cased letter stands before it and none after it. ASCII text never reaches the tables.
-/
namespace WalletRouting
set_option autoImplicit false

namespace Text

def isIgnorable (c : Char) : Bool := inRuns caseIgnorable c.toNat

def isCased (c : Char) : Bool := inRuns casedLetters c.toNat

/-- Whether the first character that is not passed over has case. -/
def meetsCased : List Char → Bool
  | [] => false
  | c :: rest => if isIgnorable c then meetsCased rest else isCased c

def lowerChar (c : Char) : List Char :=
  if c.toNat < 128 then [c.toLower]
  else if c.toNat = 304 then ['i', '\u0307']
  else
    match lowerRuns.findSome? (fun r => r.lower? c.toNat) with
    | some n => [Char.ofNat n]
    | none => [c]

/-- `before` holds the characters already passed, the nearest first. -/
def lowerFrom (before : List Char) : List Char → List Char
  | [] => []
  | c :: rest =>
    (if c.toNat = 931 then
      (if meetsCased before && !(meetsCased rest) then ['\u03c2'] else ['\u03c3'])
    else lowerChar c) ++ lowerFrom (c :: before) rest

def lower (s : String) : List Char := lowerFrom [] s.toList

def occursIn (needle : List Nat) : List Nat → Bool
  | [] => needle.isEmpty
  | c :: rest => needle.isPrefixOf (c :: rest) || occursIn needle rest

def containsIgnoringCase (hay needle : String) : Bool := occursIn (pointsOf (lower needle)) (pointsOf (lower hay))

end Text

end WalletRouting
