import WalletRouting.Registry.Basic
import WalletRouting.Schema.Misuse

/-! # Registries as they are given

A version may be given without its date, its rules and its signature: it is then in effect from the first, holds no
rules, and is signed.
-/
namespace WalletRouting
set_option autoImplicit false

namespace PolicyVersion

def sign (rules : List Rule) : Except Misuse String :=
  match rules.findSome? Rule.writeError? with
  | some e => .error (.unwritable e)
  | none => .ok (Signature.ofRules rules)

/-- A member that may be left out. -/
def supplied (name : String) (v : Value) (given : Keyed Value) : Keyed Value :=
  if given.has name then given else given.put name v

/-- The signature that is given, else that of the rules. -/
def signatureOf (given : Keyed Value) (rules : List Rule) : Except Misuse Value :=
  match given.get? "signature_hash" with
  | some v => .ok v
  | none => (sign rules).map .text

def ofGiven (v : Value) : Except Misuse PolicyVersion :=
  match v with
  | .object given => do
    let rules ← (← ((Keyed.get? "rules" given).getD (.list [])).elements).mapM fun r => (Rule.read r).usable
    let signed : Keyed Value := Keyed.put "signature_hash" (← signatureOf given rules) given
    let p ← (read (.object ((supplied "effective_date" (.int 0) signed).put "rules" (.list [])))).usable
    return { p with rules := rules }
  | _ => .error .noMember

end PolicyVersion

namespace Origin

def ofGiven (registry defaultVersion : Value) : Except Misuse Origin := do
  let current := (← registry.entry? "current_version").getD .null
  match ← registry.entry? "versions" with
  | none => return ⟨none, current, defaultVersion⟩
  | some .null => return ⟨none, current, defaultVersion⟩
  | some versions => return ⟨some (← (← versions.elements).mapM PolicyVersion.ofGiven), current, defaultVersion⟩

end Origin

end WalletRouting
