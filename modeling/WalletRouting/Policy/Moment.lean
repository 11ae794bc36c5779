import WalletRouting.Policy.Active
import WalletRouting.Schema.Misuse

/-! # Times to ask rules at

Rules are asked at a whole time. A time of another form is looked at only where a rule that is asked has an expiry, and
stands for the whole time that lies after the same expiries.
-/
namespace WalletRouting
set_option autoImplicit false

namespace Moment

/-- Further away than any expiry that can be written. -/
def farAway : Int := Nat.pow 10 5000

/-- A time with a fraction lies after the same expiries as the next whole time does; what is no number, after none. -/
def ofNumber : Number → Int
  | .int n => n
  | .float x =>
    match Binary.ofFloat x, Double.floor? (-x) with
    | .nan, _ => -farAway
    | .infinite negative, _ => if negative then -farAway else farAway
    | _, some n => -n
    | _, none => 0

/-- The time that a value gives; null stands for the reading of the clock. -/
def ofValue (clock : Int) (compared : Bool) (v : Value) : Except Misuse Int :=
  match v, v.quantity? with
  | .null, _ => .ok clock
  | _, some n => .ok (ofNumber n)
  | v, none => if compared then .error (v.incomparable ">") else .ok 0

/-- The time at which rules are evaluated; only those that are enabled are asked. -/
def forRules (clock : Int) (rules : List Rule) (v : Value) : Except Misuse Int :=
  ofValue clock (rules.any fun r => r.enabled && r.expiry.isSome) v

end Moment

namespace Rule

def expiredAt (clock : Int) (v : Value) (r : Rule) : Except Misuse Bool := do
  return r.expired (← Moment.ofValue clock r.expiry.isSome v)

end Rule

end WalletRouting
