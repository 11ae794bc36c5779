import WalletRouting.Number.Binary

/-! # A fractional power

The exponent is a double, hence a fraction whose denominator is a power of two, and such a power is made of
square roots: one for every binary place of the exponent. They are taken in integers, with far more places
than a double has.
-/
namespace WalletRouting
set_option autoImplicit false

namespace Power

/-- Numbers in `[0, 1]` are counted in units of `1 / scale`. -/
def scale : Nat := Nat.pow 2 128

/-- Steps down from a number that is not below the square root, each to the mean of `r` and `n / r`. -/
def rootFrom (n : Nat) : Nat → Nat → Nat
  | 0, r => r
  | fuel + 1, r => if (r + n / r) / 2 < r then rootFrom n fuel ((r + n / r) / 2) else r

/-- The square root of a number counted in units, in units. -/
def squareRoot (n : Nat) : Nat := rootFrom (n * scale) 128 (Nat.pow 2 (Nat.log2 (n * scale) / 2 + 1))

/-- `base ^ (m / 2 ^ places)`, for `m` below `2 ^ places`; the base and the power are counted in units. -/
def fractional (base : Nat) : Nat → Nat → Nat
  | 0, _ => scale
  | places + 1, m =>
    let rest := fractional base places (m % Nat.pow 2 places)
    squareRoot (if Nat.pow 2 places ≤ m then base * rest / scale else rest)

/-- Four fifths as a double can hold them: this over `2 ^ 52`. -/
def fourFifths : Nat := 3602879701896397

theorem ofFloat_fourFifths : Binary.ofFloat 0.8 = .finite false (2 * fourFifths) (-53) := by decide

/-- The double nearest to `(k / 2 ^ 32) ^ 0.8`, for `k` below `2 ^ 32`. -/
def ofUnit (k : Nat) : Double :=
  Float.ofNat (fractional (k * Nat.pow 2 96) 52 fourFifths) / Float.ofNat scale

end Power

end WalletRouting
