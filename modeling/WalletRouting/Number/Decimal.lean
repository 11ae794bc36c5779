import WalletRouting.Number.Binary

/-! # Doubles as decimal text

Two ways to pick digits: `shortest` takes the fewest that read back as the same double, `roundedTo`
keeps a given number of significant ones. A `Layout` says how digits are written down; the layouts in
use are `Layout.exact` and `Layout.general`. Fixed places are written by `Double.fixed`.
-/
namespace WalletRouting
set_option autoImplicit false

/-- `digits * 10 ^ exponent`. -/
structure Decimal where
  digits : Nat
  exponent : Int
  deriving DecidableEq, Repr

namespace Decimal

def stripZeros : Nat → Decimal → Decimal
  | 0, d => d
  | fuel + 1, d =>
    if d.digits ≠ 0 ∧ d.digits % 10 = 0 then stripZeros fuel ⟨d.digits / 10, d.exponent + 1⟩ else d

/-- The same decimal without trailing zeros. -/
def normal (d : Decimal) : Decimal := stripZeros (Nat.log2 d.digits + 1) d

def digitCount (n : Nat) : Nat := (Nat.toDigits 10 n).length

/-- The least `k ≥ 1` with `10 ^ k * num ≥ den`, searched up to the smallest double. -/
def leadingZeros (num den : Nat) : Nat → Nat → Nat
  | 0, k => k
  | fuel + 1, k => if den ≤ num * Nat.pow 10 k then k else leadingZeros num den fuel (k + 1)

/-- The power of ten of the first significant digit of `num / den`. -/
def leadingExponent (num den : Nat) : Int :=
  if den ≤ num then Int.ofNat (digitCount (num / den)) - 1
  else -(Int.ofNat (leadingZeros num den 330 1))

/-- Numerator and denominator of `num / den / 10 ^ exponent`. -/
def scaled (num den : Nat) : Int → Nat × Nat
  | .ofNat k => (num, den * Nat.pow 10 k)
  | .negSucc k => (num * Nat.pow 10 (k + 1), den)

/-- `num / den` to that many significant digits, a half going to the even neighbour. -/
def roundedTo (significant num den : Nat) : Decimal :=
  let exponent := leadingExponent num den - (Int.ofNat significant - 1)
  let (n, d) := scaled num den exponent
  ⟨roundHalfEven n d, exponent⟩

/-- The reals that round to `mantissa * 2 ^ exponent`, in units of a quarter of its last place. -/
structure Interval where
  low : Nat
  high : Nat
  closed : Bool

def interval (mantissa : Nat) (exponent : Int) : Interval where
  low := if mantissa = Nat.pow 2 52 ∧ exponent ≠ -1074 then 4 * mantissa - 1 else 4 * mantissa - 2
  high := 4 * mantissa + 2
  closed := mantissa % 2 = 0

/-- Whether `digits * 10 ^ exponent` lies in the interval whose unit is `unitNum / unitDen`. -/
def Interval.holds (r : Interval) (unitNum unitDen : Nat) (exponent : Int) (digits : Nat) : Bool :=
  let (tenNum, tenDen) : Nat × Nat :=
    match exponent with
    | .ofNat k => (Nat.pow 10 k, 1)
    | .negSucc k => (1, Nat.pow 10 (k + 1))
  let value := digits * tenNum * unitDen
  let low := r.low * unitNum * tenDen
  let high := r.high * unitNum * tenDen
  if r.closed then low ≤ value && value ≤ high else low < value && value < high

/-- One grid of decimals: of the value's two neighbours on it, the one that reads back; the nearer if both do. -/
def onGrid (mantissa : Nat) (binaryExponent exponent : Int) : Option Decimal :=
  let (num, den) := Binary.ratio mantissa binaryExponent
  let (unitNum, unitDen) := Binary.ratio 1 (binaryExponent - 2)
  let r := interval mantissa binaryExponent
  let (n, d) := scaled num den exponent
  let below := n / d
  match r.holds unitNum unitDen exponent below, r.holds unitNum unitDen exponent (below + 1) with
  | true, true => some ⟨roundHalfEven n d, exponent⟩
  | true, false => some ⟨below, exponent⟩
  | false, true => some ⟨below + 1, exponent⟩
  | false, false => none

def coarsest (mantissa : Nat) (binaryExponent top : Int) : Nat → Nat → Decimal
  | 0, _ => (roundedTo 17 (Binary.ratio mantissa binaryExponent).1 (Binary.ratio mantissa binaryExponent).2)
  | fuel + 1, count =>
    match onGrid mantissa binaryExponent (top - (Int.ofNat count - 1)) with
    | some d => d
    | none => coarsest mantissa binaryExponent top fuel (count + 1)

/-- The fewest digits that read back as the same double, and of those the nearest; seventeen suffice. -/
def shortest (mantissa : Nat) (exponent : Int) : Decimal :=
  if mantissa = 0 then ⟨0, 0⟩
  else
    let (num, den) := Binary.ratio mantissa exponent
    (coarsest mantissa exponent (leadingExponent num den) 17 1).normal

end Decimal

/-- How digits become text: where positional notation ends, and whether a whole number shows `.0`. -/
structure Layout where
  firstPositional : Int
  firstScientific : Int
  wholeMark : Bool

/-- Shortest digits; positional from `1e-4` up to below `1e16`. -/
def Layout.exact : Layout := ⟨-4, 16, true⟩

/-- Six significant digits, trailing zeros dropped. -/
def Layout.general : Layout := ⟨-4, 6, false⟩

namespace Layout

def exponentText (e : Int) : String :=
  let magnitude := toString e.natAbs
  (if e < 0 then "e-" else "e+") ++ (if magnitude.length < 2 then "0" ++ magnitude else magnitude)

/-- Digits without trailing zeros, written under the layout. -/
def write (layout : Layout) (negative : Bool) (d : Decimal) : String :=
  let digits := Nat.toDigits 10 d.digits
  let top := Int.ofNat digits.length + d.exponent - 1
  let sign := if negative then "-" else ""
  if layout.firstPositional ≤ top ∧ top < layout.firstScientific then
    match d.exponent with
    | .ofNat k =>
      sign ++ String.ofList (digits ++ List.replicate k '0') ++ (if layout.wholeMark then ".0" else "")
    | .negSucc k =>
      let places := k + 1
      if digits.length ≤ places then
        sign ++ "0." ++ String.ofList (List.replicate (places - digits.length) '0' ++ digits)
      else
        let wholePart := digits.length - places
        sign ++ String.ofList (digits.take wholePart) ++ "." ++ String.ofList (digits.drop wholePart)
  else
    let fraction := digits.drop 1
    sign ++ String.ofList (digits.take 1) ++
      (if fraction.isEmpty then "" else "." ++ String.ofList fraction) ++ exponentText top

end Layout

namespace Double

def writeWith (digits : Nat → Int → Decimal) (layout : Layout) (x : Double) : String :=
  match Binary.ofFloat x with
  | .nan => "nan"
  | .infinite negative => if negative then "-inf" else "inf"
  | .finite negative mantissa exponent =>
    if mantissa = 0 then layout.write negative ⟨0, 0⟩
    else layout.write negative (digits mantissa exponent).normal

/-- The shortest text that reads back as the same double. -/
def exactText (x : Double) : String := x.writeWith Decimal.shortest Layout.exact

def generalText (x : Double) : String :=
  x.writeWith (fun mantissa exponent =>
    let (num, den) := Binary.ratio mantissa exponent
    (Decimal.roundedTo 6 num den)) Layout.general

/-- Exactly that many decimal places; zero keeps its sign. -/
def fixed (places : Nat) (x : Double) : String :=
  match Binary.ofFloat x with
  | .nan => "nan"
  | .infinite negative => if negative then "-inf" else "inf"
  | .finite negative mantissa exponent =>
    let (num, den) := Binary.ratio mantissa exponent
    let digits := Nat.toDigits 10 (roundHalfEven (num * Nat.pow 10 places) den)
    let padded := List.replicate (places + 1 - digits.length) '0' ++ digits
    let wholePart := padded.length - places
    (if negative then "-" else "") ++ String.ofList (padded.take wholePart) ++
      (if places = 0 then "" else "." ++ String.ofList (padded.drop wholePart))

end Double

end WalletRouting
