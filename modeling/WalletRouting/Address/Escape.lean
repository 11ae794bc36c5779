import WalletRouting.Json.Reader
import WalletRouting.Text.Quoted

/-! # Percent escapes

In an address a byte may be written as a percent sign and two hexadecimal digits. What a part of an address cannot hold
as it is has to be written so; what is written so already stays.
-/
namespace WalletRouting
set_option autoImplicit false

inductive AddressError where
  | malformed
  /-- Half of a surrogate pair has no bytes. -/
  | broken
  deriving DecidableEq, Repr

namespace Address

def isHex (point : Nat) : Bool := (Json.hexValue? (Char.ofNat point)).isSome

def escapeByte (b : UInt8) : List Char := '%' :: (Text.hexDigits 2 b.toNat).map Char.toUpper

/-- A character as it is, or as its bytes. -/
def escapePoint (stays : Nat → Bool) (point : Nat) : Except AddressError (List Char) :=
  if stays point then .ok [Char.ofNat point]
  else if Text.isHalf point then .error .broken
  else .ok ((String.ofList [Char.ofNat point]).toUTF8.toList.flatMap escapeByte)

/-- The points of a part of an address, all but those that stay escaped. -/
def escape (stays : Nat → Bool) : List Nat → Except AddressError (List Char)
  | [] => .ok []
  | 37 :: a :: b :: rest =>
    if isHex a && isHex b then do return '%' :: Char.ofNat a :: Char.ofNat b :: (← escape stays rest)
    else do return (← escapePoint stays 37) ++ (← escape stays (a :: b :: rest))
  | point :: rest => do return (← escapePoint stays point) ++ (← escape stays rest)

/-- Bytes with the percent escapes among them read; an escape that is none stands for itself. -/
def unescape : List UInt8 → List UInt8
  | 37 :: a :: b :: rest =>
    match Json.hexValue? (Char.ofNat a.toNat), Json.hexValue? (Char.ofNat b.toNat) with
    | some high, some low => UInt8.ofNat (high * 16 + low) :: unescape rest
    | _, _ => 37 :: unescape (a :: b :: rest)
  | c :: rest => c :: unescape rest
  | [] => []

/-- Printable ASCII characters other than a blank, without those listed. -/
def printableBut (excluded : List Char) (point : Nat) : Bool :=
  32 < point && point < 127 && !(excluded.contains (Char.ofNat point))

def staysInQuery : Nat → Bool := printableBut ['"', '#', '<', '>']

def staysInFragment : Nat → Bool := printableBut ['"', '<', '>', '`']

def staysInPath : Nat → Bool := printableBut ['"', '#', '<', '>', '?', '`', '{', '}']

def staysInUser : Nat → Bool :=
  printableBut ['"', '#', '<', '>', '?', '`', '{', '}', '/', ';', '=', '@', '[', '\\', ']', '^', '|']

def staysInHost : Nat → Bool := printableBut ['#', '/', ':', '<', '>', '?', '@', '[', ']', '^']

end Address

end WalletRouting
