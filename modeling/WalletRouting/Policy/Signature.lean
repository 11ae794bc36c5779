import WalletRouting.Digest.Sha256
import WalletRouting.Json.Printer
import WalletRouting.Policy.Rule

/-! # Signatures of rule sets

A digest of the canonical text of what the rules do: id, type, priority, condition and action. Labels,
switches, expiry and stored snippets take no part. Members that are absent are left out of the text.
-/
namespace WalletRouting
set_option autoImplicit false

def present (members : List (String × Option Value)) : Value :=
  .object (members.filterMap fun (k, v) => v.map fun v => (k, v))

/-- A free-form member counts as absent exactly when it is null. -/
def Value.unlessNull : Value → Option Value
  | .null => none
  | v => some v.finitePart

namespace Condition

mutual

def content : Condition → Value
  | .node field operator bound all any => present
    [("field", some (.text field)),
     ("operator", some (.text operator.name)),
     ("value", bound.unlessNull),
     ("and", branchContent all),
     ("or", branchContent any)]

def branchContent : Option (List Condition) → Option Value
  | none => none
  | some cs => some (.list (contents cs))

def contents : List Condition → List Value
  | [] => []
  | c :: cs => content c :: contents cs

end

end Condition

namespace Action

def content (a : Action) : Value := present
  [("type", some (.text a.type.name)),
   ("target_credential_id", a.target.map .text),
   ("target_property", a.property.map .text),
   ("target_property_value", a.propertyValue.unlessNull),
   ("boost_amount", a.boost.map .float),
   ("penalty_amount", a.penalty.map .float),
   ("reason", some (.text a.reason))]

end Action

namespace Rule

def content (r : Rule) : Value := .object
  [("id", .text r.id),
   ("type", .text r.type.name),
   ("priority", .int r.priority),
   ("condition", r.condition.content),
   ("action", r.action.content)]

end Rule

namespace Signature

def canonicalText (rules : List Rule) : String := (Value.ofList Rule.content rules).canonical

def ofRules (rules : List Rule) : String := "sha256:" ++ Sha256.hexDigest (canonicalText rules)

end Signature

end WalletRouting
