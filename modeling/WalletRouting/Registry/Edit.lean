import WalletRouting.Registry.Basic

/-! # Editing the current version

An edit computes the rules the current version will have, or an error. Only then is anything stored: the
new rules together with their signature, in the first version of the current name. Rules that cannot be written
out cannot be signed; a version that comes to hold some keeps the signature it had.
-/
namespace WalletRouting
set_option autoImplicit false

namespace PolicyVersion

/-- The version with other rules, signed anew if they can be written. -/
def withRules (rules : List Rule) (p : PolicyVersion) : PolicyVersion :=
  { p with
    rules := rules
    signature := if (rules.findSome? Rule.writeError?).isNone then Signature.ofRules rules else p.signature }

end PolicyVersion

/-- An edit turns the rules of a version into other rules. -/
abbrev Edit := PolicyVersion → Except RegistryError (List Rule)

namespace Edit

def requireValid (r : Rule) : Except RegistryError Unit :=
  if r.isValid then .ok () else .error (.invalidRule r.id r.defects)

def holds (id : String) (rules : List Rule) : Bool := rules.any fun r => r.id = id

def add (r : Rule) : Edit := fun p =>
  if holds r.id p.rules then .error (.duplicateRule r.id p.version) else .ok (p.rules ++ [r])

def remove (id : String) : Edit := fun p =>
  if holds id p.rules then .ok (p.rules.eraseP fun r => r.id = id) else .error (.unknownRule id p.version)

/-- The members of a rule overlaid with updates. A stored snippet would describe the rule as it was, so it goes
when the condition or the action is replaced and no other snippet is given. -/
def overlay (updates : Keyed Value) (r : Rule) : Keyed Value :=
  let merged := r.exactMembers.update updates
  if (updates.has "condition" || updates.has "action") && !(updates.has "compiled_dsl") then
    merged.put "compiled_dsl" .null
  else merged

def revise (updates : Keyed Value) (r : Rule) : Except RegistryError Rule := do
  match Rule.read (.object (overlay updates r)) with
  | .bad issues => .error (.malformedRule issues)
  | .ok revised =>
    requireValid revised
    return revised

def replaceRule (id : String) (revised : Rule) : List Rule → List Rule
  | [] => []
  | r :: rest => if r.id = id then revised :: rest else r :: replaceRule id revised rest

/-- The first rule of the id, unless too much lies inside one another in it. -/
def find (id : String) (p : PolicyVersion) : Except RegistryError Rule :=
  match p.rules.find? fun r => r.id = id with
  | none => .error (.unknownRule id p.version)
  | some r => if r.writeErrors.contains .tooDeep then .error (.unwritable .tooDeep) else .ok r

/-- The first rule of the id is revised in place. A new id must be free. -/
def update (id : String) (updates : Keyed Value) : Edit := fun p => do
  let revised ← revise updates (← find id p)
  if revised.id ≠ id ∧ holds revised.id p.rules then .error (.duplicateRule revised.id p.version)
  else return replaceRule id revised p.rules

def firstOccurrences : List String → List String
  | [] => []
  | id :: rest => id :: (firstOccurrences rest).filter (· ≠ id)

def lastOf? (rules : List Rule) (id : String) : Option Rule := (rules.filter fun r => r.id = id).getLast?

def renumberFrom (n : Int) : List Rule → List Rule
  | [] => []
  | r :: rest => { r with priority := n } :: renumberFrom (n + 1) rest

/-- Listed rules first, in the order listed; then the others in the order they had. Priorities count from one. -/
def reordered (ids : List String) (rules : List Rule) : List Rule :=
  renumberFrom 1 ((firstOccurrences ids).filterMap (lastOf? rules) ++ rules.filter fun r => !(ids.contains r.id))

def reorder (ids : List String) : Edit := fun p => .ok (reordered ids p.rules)

end Edit

namespace Registry

/-- Carries an edit out, and answers with the version as it is then. -/
def edit (e : Edit) (r : Registry) : Except RegistryError (PolicyVersion × Registry) := do
  let p ← r.find r.current
  let rules ← e p
  return (p.withRules rules,
    { r with versions := replaceFirst r.current (fun _ => p.withRules rules) r.versions })

/-- A rule is examined before the version is looked up. -/
def addRule (rule : Rule) (r : Registry) : Except RegistryError (PolicyVersion × Registry) := do
  Edit.requireValid rule
  r.edit (Edit.add rule)

def updateRule (id : String) (updates : Keyed Value) (r : Registry) :
    Except RegistryError (PolicyVersion × Registry) :=
  r.edit (Edit.update id updates)

def removeRule (id : String) (r : Registry) : Except RegistryError (PolicyVersion × Registry) :=
  r.edit (Edit.remove id)

def reorderRules (ids : List String) (r : Registry) : Except RegistryError (PolicyVersion × Registry) :=
  r.edit (Edit.reorder ids)

end Registry

end WalletRouting
