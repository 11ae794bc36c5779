import WalletRouting.Ordered
import WalletRouting.Value.Basic

/-! # Writing JSON

The compact ASCII form: no blanks, every character outside the printable ASCII range escaped in UTF-16
units. What JSON has no form for is named by a word that JSON does not have. `Value.canonical` also sorts the
members of every object by code point, so that it depends on content alone.
-/
namespace WalletRouting
set_option autoImplicit false

namespace Json

def hexDigit (n : Nat) : Char := if n < 10 then Char.ofNat (48 + n) else Char.ofNat (87 + n)

def unitEscape (n : Nat) : List Char :=
  ['\\', 'u', hexDigit (n / 4096 % 16), hexDigit (n / 256 % 16), hexDigit (n / 16 % 16), hexDigit (n % 16)]

def escape (point : Nat) : List Char :=
  if point = 34 then ['\\', '"']
  else if point = 92 then ['\\', '\\']
  else if point = 10 then ['\\', 'n']
  else if point = 13 then ['\\', 'r']
  else if point = 9 then ['\\', 't']
  else if point = 12 then ['\\', 'f']
  else if point = 8 then ['\\', 'b']
  else if 32 ≤ point ∧ point ≤ 126 then [Char.ofNat point]
  else if point < 65536 then unitEscape point
  else
    let n := point - 65536
    unitEscape (55296 + n / 1024) ++ unitEscape (56320 + n % 1024)

def quoted (s : String) : List Char := '"' :: ((Text.points s).flatMap escape ++ ['"'])

def numberText : Number → String
  | .int n => toString n
  | .float x =>
    match Binary.ofFloat x with
    | .nan => "NaN"
    | .infinite negative => if negative then "-Infinity" else "Infinity"
    | .finite .. => x.exactText

mutual

def write : Value → List Char
  | .null => ['n', 'u', 'l', 'l']
  | .bool true => ['t', 'r', 'u', 'e']
  | .bool false => ['f', 'a', 'l', 's', 'e']
  | .num n => (numberText n).toList
  | .text s => quoted s
  | .list xs => '[' :: (writeItems xs ++ [']'])
  | .object ms => '\x7b' :: (writeMembers ms ++ ['\x7d'])
  | .unresolved => "Unresolved".toList

def writeItems : List Value → List Char
  | [] => []
  | [x] => write x
  | x :: xs => write x ++ ',' :: writeItems xs

def writeMembers : List (String × Value) → List Char
  | [] => []
  | [(k, v)] => quoted k ++ ':' :: write v
  | (k, v) :: ms => quoted k ++ ':' :: (write v ++ ',' :: writeMembers ms)

end

end Json

namespace Value

def keyLe (a b : String × Value) : Bool := !(Text.before b.1 a.1)

mutual

def sortKeys : Value → Value
  | .list xs => .list (sortKeysAll xs)
  | .object ms => .object (Ordered.sort keyLe (sortKeysMembers ms))
  | v => v

def sortKeysAll : List Value → List Value
  | [] => []
  | x :: xs => sortKeys x :: sortKeysAll xs

def sortKeysMembers : List (String × Value) → List (String × Value)
  | [] => []
  | (k, v) :: ms => (k, sortKeys v) :: sortKeysMembers ms

end

/-- Compact text, members in their own order. -/
def compact (v : Value) : String := String.ofList (Json.write v)

/-- Compact text, members sorted by key. -/
def canonical (v : Value) : String := v.sortKeys.compact

end Value

end WalletRouting
