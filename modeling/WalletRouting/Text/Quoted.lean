import WalletRouting.Text.Half
import WalletRouting.Text.Visible

/-! # Quoted text

A text between quotes on one line: single quotes, unless it holds a single quote and no double one.
Characters that cannot be shown are escaped by number, in two, four or eight digits.
-/
namespace WalletRouting
set_option autoImplicit false

namespace Text

def hexDigits (width n : Nat) : List Char :=
  let digits := Nat.toDigits 16 n
  List.replicate (width - digits.length) '0' ++ digits

def escapeFor (quote : Char) (point : Nat) : List Char :=
  let c := Char.ofNat point
  if isHalf point then '\\' :: 'u' :: hexDigits 4 point
  else if c = quote ∨ c = '\\' then ['\\', c]
  else if c = '\n' then ['\\', 'n']
  else if c = '\r' then ['\\', 'r']
  else if c = '\t' then ['\\', 't']
  else if isVisible c then [c]
  else if point < 256 then '\\' :: 'x' :: hexDigits 2 point
  else if point < 65536 then '\\' :: 'u' :: hexDigits 4 point
  else '\\' :: 'U' :: hexDigits 8 point

def quoted (s : String) : String :=
  let quote := if s.toList.contains '\'' && !s.toList.contains '"' then '"' else '\''
  String.ofList (quote :: ((points s).flatMap (escapeFor quote) ++ [quote]))

end Text

end WalletRouting
