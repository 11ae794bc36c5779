import WalletRouting.Json.Reader

/-! # The encoding of a JSON text

JSON starts with ASCII characters, so where zeros stand among its first four bytes shows how wide its units are and
in which order their bytes come. Without zeros there it is UTF-8, perhaps behind a byte order mark.
-/
namespace WalletRouting
set_option autoImplicit false

namespace Json

inductive Encoding where
  | utf8
  | utf16 (bigEndian : Bool)
  | utf32 (bigEndian : Bool)
  deriving DecidableEq, Repr

def Encoding.ofBytes : List UInt8 → Encoding
  | [a, b] => if a = 0 then .utf16 true else if b = 0 then .utf16 false else .utf8
  | a :: b :: c :: d :: _ =>
    if a = 0 then (if b = 0 then .utf32 true else .utf16 true)
    else if b = 0 then (if c = 0 ∧ d = 0 then .utf32 false else .utf16 false)
    else .utf8
  | _ => .utf8

def units16? (bigEndian : Bool) : List UInt8 → Option (List Nat)
  | [] => some []
  | a :: b :: rest =>
    let unit := if bigEndian then a.toNat * 256 + b.toNat else b.toNat * 256 + a.toNat
    (units16? bigEndian rest).map (unit :: ·)
  | _ => none

/-- The points of units; half of a pair that stands alone is kept. -/
def pointsOfUnits : List Nat → List Nat
  | [] => []
  | [n] => [n]
  | high :: low :: rest =>
    if isHighUnit high && isLowUnit low then pairPoint high low :: pointsOfUnits rest
    else high :: pointsOfUnits (low :: rest)

/-- The points of units of four bytes, as far as there are such points. -/
def points32? (bigEndian : Bool) : List UInt8 → Option (List Nat)
  | [] => some []
  | a :: b :: c :: d :: rest =>
    let value := fun (w x y z : UInt8) => ((w.toNat * 256 + x.toNat) * 256 + y.toNat) * 256 + z.toNat
    let n := if bigEndian then value a b c d else value d c b a
    if n < 0x110000 then (points32? bigEndian rest).map (n :: ·) else none
  | _ => none

def withoutMark : List Char → List Char
  | '\ufeff' :: rest => rest
  | chars => chars

/-- The text that the bytes of `s`, which is whole, are, if they are one. -/
def decoded? (s : String) : Option String :=
  let bytes := (String.ofList (Text.chars s)).toUTF8.toList
  match Encoding.ofBytes bytes with
  | .utf8 => some (String.ofList (withoutMark s.toList))
  | .utf16 bigEndian => (units16? bigEndian bytes).map fun units => Text.ofPoints (pointsOfUnits units)
  | .utf32 bigEndian => (points32? bigEndian bytes).map Text.ofPoints

end Json

end WalletRouting
