import WalletRouting.Schema.Misuse
import WalletRouting.Schema.Scalar
import WalletRouting.Text.Character

/-! # Numbers in any spelling

Digits of every script count, with single separators between them, behind a sign and between spaces.
-/
namespace WalletRouting
set_option autoImplicit false

namespace Schema

def spelledInteger? (s : String) : Option Int :=
  let (negative, body) := splitSign (Text.trim s.toList)
  match dropSeparators body with
  | some digits =>
    if digits.isEmpty ∨ Json.integerDigitLimit < digits.length then none
    else (Text.digits? digits).map fun n => Binary.signed negative n
  | none => none

/-- A decimal digit of ASCII for one of any script. -/
def plainDigit (c : Char) : Char :=
  match Text.digit? c with
  | some n => Char.ofNat (48 + n)
  | none => c

/-- Whether every separator stands between two digits. -/
def separatesDigits (before : Char) : List Char → Bool
  | [] => before ≠ '_'
  | c :: rest =>
    (if c = '_' then before.isDigit else if before = '_' then c.isDigit else true) && separatesDigits c rest

def spelledDouble? (s : String) : Option Double :=
  let chars := (Text.trim s.toList).map plainDigit
  if separatesDigits ' ' chars then plainDouble? (chars.filter (· ≠ '_')) else none

def doubleOf (v : Value) : Except Misuse Double :=
  match v, v.quantity? with
  | .text s, _ =>
    match spelledDouble? s with
    | some x => .ok x
    | none => .error .unreadable
  | _, some n => n.double.mapError .number
  | v, none => .error (.wrongForm v.formName)

end Schema

end WalletRouting
