import WalletRouting.Number.Decimal

/-! # Numbers as they were written

An amount keeps whether it was written as an integer or with a point, since texts and digests tell
`1` from `1.0`. Comparison does not: it is exact, at any size and across the two forms.
-/
namespace WalletRouting
set_option autoImplicit false

inductive Number where
  | int (n : Int)
  | float (x : Double)
  deriving Repr

inductive NumberError where
  /-- An integer is beyond the largest double, or an infinite value would have to be one. -/
  | tooLarge
  | notANumber
  deriving DecidableEq, Repr

def NumberError.message : NumberError → String
  | .tooLarge => "int too large to convert to float"
  | .notANumber => "cannot convert float NaN to integer"

def Double.floor (x : Double) : Except NumberError Int :=
  match Binary.ofFloat x, Double.floor? x with
  | .nan, _ => .error .notANumber
  | _, some n => .ok n
  | _, none => .error .tooLarge

namespace Number

instance : Inhabited Number := ⟨.int 0⟩

def reading : Number → Binary
  | .int n => Binary.ofInt n
  | .float x => Binary.ofFloat x

def compare? (a b : Number) : Option Ordering := Binary.compare? a.reading b.reading

def same (a b : Number) : Bool := compare? a b == some .eq

def below (a b : Number) : Bool := compare? a b == some .lt

/-- Not below, and comparable. -/
def reaches (a b : Number) : Bool := compare? a b == some .eq || compare? a b == some .gt

def isZero (a : Number) : Bool := a.same (.int 0)

/-- The nearest double; an integer beyond the largest double has none. -/
def toDouble? : Number → Option Double
  | .int n =>
    let x := Float.ofInt n
    if Double.finite x then some x else none
  | .float x => some x

/-- The nearest double, infinite beyond the largest. -/
def toDouble : Number → Double
  | .int n => Float.ofInt n
  | .float x => x

def double (n : Number) : Except NumberError Double :=
  match n.toDouble? with
  | some x => .ok x
  | none => .error .tooLarge

/-- Integers are combined exactly; a double on either side makes doubles of both. -/
def combine (whole : Int → Int → Int) (real : Double → Double → Double) :
    Number → Number → Except NumberError Number
  | .int a, .int b => .ok (.int (whole a b))
  | a, b => do return .float (real (← a.double) (← b.double))

def plus : Number → Number → Except NumberError Number := combine (· + ·) (· + ·)

def minus : Number → Number → Except NumberError Number := combine (· - ·) (· - ·)

def times : Number → Number → Except NumberError Number := combine (· * ·) (· * ·)

def floor : Number → Except NumberError Int
  | .int n => .ok n
  | .float x => x.floor

def truncate : Number → Except NumberError Int
  | .int n => .ok n
  | .float x =>
    match Binary.ofFloat x, Double.truncate? x with
    | .nan, _ => .error .notANumber
    | _, some n => .ok n
    | _, none => .error .tooLarge

def add : Number → Number → Number
  | .int a, .int b => .int (a + b)
  | a, b => .float (a.toDouble + b.toDouble)

def scale (k : Nat) : Number → Number
  | .int n => .int (k * n)
  | .float x => .float (Float.ofNat k * x)

/-- The integer part; zero where there is none. -/
def whole : Number → Int
  | .int n => n
  | .float x => (Double.truncate? x).getD 0

@[simp] theorem whole_int (n : Int) : whole (.int n) = n := rfl

@[simp] theorem add_int (a b : Int) : add (.int a) (.int b) = .int (a + b) := rfl

def exactText : Number → String
  | .int n => toString n
  | .float x => x.exactText

/-- Integers by value, doubles by their bits. -/
def identical : Number → Number → Bool
  | .int a, .int b => a == b
  | .float x, .float y => x.toBits == y.toBits
  | _, _ => false

end Number

end WalletRouting
