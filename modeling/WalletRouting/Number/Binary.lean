/-! # Doubles read exactly

A double is a sign and `mantissa * 2 ^ exponent`. Floors, whole values and comparison with integers
are computed on that reading, in integers, so none of them rounds. Arithmetic itself stays with
`Float`; the only operation here that makes a double is `roundPlaces`.
-/
namespace WalletRouting
set_option autoImplicit false

abbrev Double := Float

inductive Binary where
  | nan
  | infinite (negative : Bool)
  | finite (negative : Bool) (mantissa : Nat) (exponent : Int)
  deriving DecidableEq, Repr

namespace Binary

/-- The fields of the 64-bit format; a subnormal has no implicit leading bit. -/
def ofFloat (x : Double) : Binary :=
  let bits := x.toBits.toNat
  let negative := decide (Nat.pow 2 63 ≤ bits)
  let biased := bits / Nat.pow 2 52 % 2048
  let fraction := bits % Nat.pow 2 52
  if biased = 2047 then
    if fraction = 0 then .infinite negative else .nan
  else if biased = 0 then
    .finite negative fraction (-1074)
  else
    .finite negative (fraction + Nat.pow 2 52) (Int.ofNat biased - 1075)

def signed (negative : Bool) (n : Nat) : Int :=
  if negative then -(Int.ofNat n) else Int.ofNat n

theorem signed_natAbs (n : Int) : signed (decide (n < 0)) n.natAbs = n := by
  unfold signed
  simp only [decide_eq_true_eq, Int.ofNat_eq_natCast]
  split <;> omega

/-- Numerator and denominator of `mantissa * 2 ^ exponent`. -/
def ratio (mantissa : Nat) : Int → Nat × Nat
  | .ofNat k => (mantissa * Nat.pow 2 k, 1)
  | .negSucc k => (mantissa, Nat.pow 2 (k + 1))

theorem ratio_den_pos (mantissa : Nat) (exponent : Int) : 0 < (ratio mantissa exponent).2 := by
  cases exponent with
  | ofNat k => exact Nat.one_pos
  | negSucc k => exact Nat.two_pow_pos (k + 1)

def floor? : Binary → Option Int
  | .finite negative mantissa exponent =>
    let (num, den) := ratio mantissa exponent
    some (signed negative num / Int.ofNat den)
  | _ => none

def truncate? : Binary → Option Int
  | .finite negative mantissa exponent =>
    let (num, den) := ratio mantissa exponent
    some (signed negative (num / den))
  | _ => none

/-- The integer a double stands for, if it stands for one. -/
def whole? : Binary → Option Int
  | .finite negative mantissa exponent =>
    let (num, den) := ratio mantissa exponent
    if num % den = 0 then some (signed negative (num / den)) else none
  | _ => none

/-- Order of the exact values; nothing compares with NaN, and the two zeros are equal. -/
def compare? : Binary → Binary → Option Ordering
  | .nan, _ => none
  | _, .nan => none
  | .infinite a, .infinite b => some (if a = b then .eq else if a then .lt else .gt)
  | .infinite a, .finite .. => some (if a then .lt else .gt)
  | .finite .., .infinite b => some (if b then .gt else .lt)
  | .finite a m e, .finite b n f =>
    let (p, q) := ratio m e
    let (r, s) := ratio n f
    some (compare (signed a p * Int.ofNat s) (signed b r * Int.ofNat q))

def ofInt (n : Int) : Binary := .finite (decide (n < 0)) n.natAbs 0

end Binary

def Double.floor? (x : Double) : Option Int := (Binary.ofFloat x).floor?

def Double.truncate? (x : Double) : Option Int := (Binary.ofFloat x).truncate?

def Double.whole? (x : Double) : Option Int := (Binary.ofFloat x).whole?

def Double.finite (x : Double) : Bool :=
  match Binary.ofFloat x with
  | .finite .. => true
  | _ => false

/-- The quotient rounded to nearest; an exact half goes to the even neighbour. -/
def roundHalfEven (num den : Nat) : Nat :=
  let q := num / den
  match compare (2 * (num % den)) den with
  | .lt => q
  | .gt => q + 1
  | .eq => if q % 2 = 0 then q else q + 1

theorem roundHalfEven_le_succ (num den : Nat) : roundHalfEven num den ≤ num / den + 1 := by
  unfold roundHalfEven
  dsimp only
  split
  · omega
  · omega
  · split <;> omega

theorem le_roundHalfEven (num den : Nat) : num / den ≤ roundHalfEven num den := by
  unfold roundHalfEven
  dsimp only
  split
  · omega
  · omega
  · split <;> omega

/-- The double nearest to `x` rounded to that many decimal places; the sign survives even on zero. -/
def Double.roundPlaces (places : Nat) (x : Double) : Double :=
  match Binary.ofFloat x with
  | .finite negative mantissa exponent =>
    let (num, den) := Binary.ratio mantissa exponent
    let magnitude := Float.ofScientific (roundHalfEven (num * Nat.pow 10 places) den) true places
    if negative then -magnitude else magnitude
  | _ => x

/-- The larger of two doubles; the first stands unless the second is strictly above it. -/
def Double.atLeast (low x : Double) : Double := if low < x then x else low

/-- The smaller of two doubles; the first stands unless the second is strictly below it. -/
def Double.atMost (high x : Double) : Double := if x < high then x else high

/-- `x` brought into `[low, high]`; a value that is no number becomes `high`. -/
def Double.clamp (low high x : Double) : Double := Double.atLeast low (Double.atMost high x)

end WalletRouting
