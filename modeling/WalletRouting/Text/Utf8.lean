/-! # Reading UTF-8

Bytes that are no UTF-8 are read too: every longest start of a character that is never finished, and every byte that
starts none, becomes one replacement character.
-/
namespace WalletRouting
set_option autoImplicit false

namespace Text

/-- A character of which some bytes were read: how many more belong to it, what the next one may be, and what those
before it count. -/
structure Unfinished where
  missing : Nat
  low : Nat
  high : Nat
  code : Nat
  deriving Repr

/-- The character that a byte from 128 on starts, if it starts one. No character has two spellings, none is half of a
surrogate pair, and none lies beyond the last plane. -/
def startOf? (b : Nat) : Option Unfinished :=
  if b < 0xC2 then none
  else if b < 0xE0 then some ⟨1, 0x80, 0xBF, b - 0xC0⟩
  else if b < 0xF0 then
    some ⟨2, if b = 0xE0 then 0xA0 else 0x80, if b = 0xED then 0x9F else 0xBF, b - 0xE0⟩
  else if b < 0xF5 then
    some ⟨3, if b = 0xF0 then 0x90 else 0x80, if b = 0xF4 then 0x8F else 0xBF, b - 0xF0⟩
  else none

def replacement : Char := '\ufffd'

/-- The characters of bytes, after those of an unfinished one. -/
def readUtf8 : Option Unfinished → List UInt8 → List Char
  | none, [] => []
  | some _, [] => [replacement]
  | state, byte :: rest =>
    let b := byte.toNat
    let afresh : List Char :=
      if b < 0x80 then Char.ofNat b :: readUtf8 none rest
      else
        match startOf? b with
        | some started => readUtf8 (some started) rest
        | none => replacement :: readUtf8 none rest
    match state with
    | none => afresh
    | some u =>
      if u.low ≤ b ∧ b ≤ u.high then
        let code := u.code * 64 + (b - 0x80)
        if u.missing = 1 then Char.ofNat code :: readUtf8 none rest
        else readUtf8 (some ⟨u.missing - 1, 0x80, 0xBF, code⟩) rest
      else replacement :: afresh

def ofUtf8 (bytes : List UInt8) : List Char := readUtf8 none bytes

end Text

end WalletRouting
