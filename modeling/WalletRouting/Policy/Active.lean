import WalletRouting.Ordered
import WalletRouting.Policy.Condition
import WalletRouting.Policy.Snippet

/-! # The rules that take part

Enabled rules in order of priority; rules of one priority stay in the order in which they are stored.
-/
namespace WalletRouting
set_option autoImplicit false

namespace Rule

/-- A rule without an expiry never expires; at the expiry itself it still applies. -/
def expired (now : Int) (r : Rule) : Bool :=
  match r.expiry with
  | none => false
  | some e => e < now

def priorityLe (a b : Rule) : Bool := a.priority ≤ b.priority

def active (rules : List Rule) : List Rule := Ordered.sort priorityLe (rules.filter fun r => r.enabled)

def current (now : Int) (rules : List Rule) : List Rule := (active rules).filter fun r => !(r.expired now)

end Rule

end WalletRouting
