import WalletRouting.Schema.Misuse

/-! # Who may administer the policy

Claims are free-form. Roles stand in a flat claim and in one nested under the realm; a claim of another shape
than a collection is an error, not an absence of roles.
-/
namespace WalletRouting
set_option autoImplicit false

inductive AccessError where
  | denied (status : Nat) (message : String)
  | unreadableToken (message : String)
  | unreachable
  | refused (status : Number)
  /-- A document that holds nothing is no JSON. -/
  | emptyDocument
  | unusable (m : Misuse)
  deriving Repr

namespace Access

def member (name : String) (default : Value) (v : Value) : Except AccessError Value :=
  ((v.entry? name).mapError .unusable).map fun found => found.getD default

/-- The elements of a collection, all of which can be looked up. -/
def elements (v : Value) : Except AccessError (List Value) := v.atoms.mapError .unusable

def distinct : List Value → List Value
  | [] => []
  | x :: rest => x :: (distinct rest).filter fun y => !(x.agrees y)

/-- The roles that claims grant, each once. -/
def roles (claims : Value) : Except AccessError (List Value) := do
  let flat ← elements (← member "roles" (.list []) claims)
  let realm ← member "realm_access" (.object []) claims
  let nested ← elements (← member "roles" (.list []) realm)
  return distinct (flat ++ nested)

def requireRole (role : String) (claims : Value) : Except AccessError Value := do
  let held ← roles claims
  if held.any fun r => r.agrees (.text role) then return claims
  else throw (.denied 403 "Policy admin role required")

end Access

end WalletRouting
