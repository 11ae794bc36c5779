import WalletRouting.Policy.Field

/-! # Which rules a policy takes

A rule is complete and names only known fields. `Rule.defects` lists what is wrong, in a fixed order.
-/
namespace WalletRouting
set_option autoImplicit false

inductive Defect where
  | noId
  | noLabel
  | noField
  | unknownField (name : String)
  | noReason
  | noTarget
  | unknownProperty (name : String)
  deriving DecidableEq, Repr

namespace Defect

def message : Defect → String
  | .noId => "Rule ID is required"
  | .noLabel => "Rule label is required"
  | .noField => "Condition field is required"
  | .unknownField name => "Unknown condition field: " ++ name
  | .noReason => "Action reason is required"
  | .noTarget => "FORCE action requires target_credential_id"
  | .unknownProperty name => "Unknown target property: " ++ name

def ofField (name : String) : List Defect :=
  if name = "" then [.noField] else if Field.isKnown name then [] else [.unknownField name]

def when (holds : Bool) (d : Defect) : List Defect := if holds then [d] else []

end Defect

/-- Whether an optional text is there and not empty. -/
def given (s : Option String) : Bool :=
  match s with
  | some s => s ≠ ""
  | none => false

namespace Rule

def defects (r : Rule) : List Defect :=
  Defect.when (r.id = "") .noId ++
    Defect.when (r.label = "") .noLabel ++
    r.condition.fields.flatMap Defect.ofField ++
    Defect.when (r.action.reason = "") .noReason ++
    Defect.when (r.action.type = .force && !(given r.action.target)) .noTarget ++
    (match r.action.property with
    | some p => Defect.when (p ≠ "" && !(InstrumentField.named.has p)) (.unknownProperty p)
    | none => [])

def isValid (r : Rule) : Bool := r.defects.isEmpty

end Rule

end WalletRouting
