/-! # Base64 with the URL alphabet

Decoding is lenient: padding may be missing, and characters outside both alphabets are passed over. It
stops at padding that completes a group of four.
-/
namespace WalletRouting
set_option autoImplicit false

namespace Base64

def sextet? (c : Char) : Option Nat :=
  if 'A' ≤ c ∧ c ≤ 'Z' then some (c.toNat - 65)
  else if 'a' ≤ c ∧ c ≤ 'z' then some (c.toNat - 71)
  else if '0' ≤ c ∧ c ≤ '9' then some (c.toNat + 4)
  else if c = '-' ∨ c = '+' then some 62
  else if c = '_' ∨ c = '/' then some 63
  else none

/-- `filled` sextets of the current group have been read, the bits not yet written out are `left`. -/
def groups (filled left pads : Nat) (done : List UInt8) : List Char → Option (List UInt8)
  | [] => if filled = 0 then some done.reverse else none
  | c :: rest =>
    if c = '=' then
      if 2 ≤ filled then
        if 4 ≤ filled + (pads + 1) then some done.reverse else groups filled left (pads + 1) done rest
      else groups filled left pads done rest
    else
      match sextet? c with
      | none => groups filled left pads done rest
      | some s =>
        match filled with
        | 0 => groups 1 s 0 done rest
        | 1 => groups 2 (s % 16) 0 (UInt8.ofNat (left * 4 + s / 16) :: done) rest
        | 2 => groups 3 (s % 4) 0 (UInt8.ofNat (left * 16 + s / 4) :: done) rest
        | _ => groups 0 0 0 (UInt8.ofNat (left * 64 + s) :: done) rest

/-- Decodes after padding the text to a whole number of groups; `length` is its length in bytes. -/
def decodeUrl (length : Nat) (chars : List Char) : Option (List UInt8) :=
  groups 0 0 0 [] (chars ++ List.replicate ((4 - length % 4) % 4) '=')

end Base64

end WalletRouting
