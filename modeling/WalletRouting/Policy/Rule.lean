import WalletRouting.Policy.Operator

/-! # Routing rules

A rule pairs a condition tree with an action. `Condition.all` and `Condition.any` tell an absent list of
children from an empty one; only what is written out depends on that. Trees are read, and written, as long as
no more nodes and values lie inside one another than `Value.depthLimit`.
-/
namespace WalletRouting
set_option autoImplicit false

inductive RuleType where
  | hard
  | soft
  deriving DecidableEq, Repr

namespace RuleType

def name : RuleType → String
  | .hard => "HARD"
  | .soft => "SOFT"

def named : Keyed RuleType := [.hard, .soft].map fun t => (t.name, t)

end RuleType

inductive ActionType where
  | force
  | exclude
  | boost
  | penalize
  | block
  deriving DecidableEq, Repr

namespace ActionType

def name : ActionType → String
  | .force => "FORCE"
  | .exclude => "EXCLUDE"
  | .boost => "BOOST"
  | .penalize => "PENALIZE"
  | .block => "BLOCK"

def named : Keyed ActionType := [.force, .exclude, .boost, .penalize, .block].map fun t => (t.name, t)

end ActionType

/-- One comparison, with children that must all hold and children of which one must. -/
inductive Condition where
  | node (field : String) (operator : Operator) (bound : Value) (all any : Option (List Condition))
  deriving Repr

structure Action where
  type : ActionType
  target : Option String
  property : Option String
  propertyValue : Value
  boost : Option Double
  penalty : Option Double
  reason : String
  deriving Repr

structure Rule where
  id : String
  label : String
  type : RuleType
  priority : Int
  enabled : Bool
  expiry : Option Int
  condition : Condition
  action : Action
  compiled : Option String
  deriving Repr

structure PolicyVersion where
  version : String
  effectiveDate : Int
  signature : String
  rules : List Rule
  description : String
  cached : Bool
  /-- What the version was marked with where that is no truth value; it is cached if there is something to that. -/
  cachedAs : Option Value := none
  deriving Repr

open Schema

namespace Condition

instance : Inhabited Condition := ⟨.node "" .eq .null none none⟩

def field : Condition → String
  | .node field .. => field

mutual

/-- The tree as an object; `free` says how a bound is written. -/
def toValueWith (free : Value → Value) : Condition → Value
  | .node field operator bound all any => .object
    [("field", .text field),
     ("operator", .text operator.name),
     ("value", free bound),
     ("and", branchValue free all),
     ("or", branchValue free any)]

def branchValue (free : Value → Value) : Option (List Condition) → Value
  | none => .null
  | some cs => .list (toValues free cs)

def toValues (free : Value → Value) : List Condition → List Value
  | [] => []
  | c :: cs => toValueWith free c :: toValues free cs

end

def toValue (c : Condition) : Value := c.toValueWith Value.finitePart

mutual

/-- Reads a tree with room for so many nodes inside one another. -/
def readWithin (room : Nat) : Value → Checked Condition
  | .object members =>
    match room with
    | 0 => issue .tooDeep (.object members)
    | room + 1 =>
      let branch (short name : String) (found foundByName : Option (Checked (Option (List Condition)))) :=
        match found, foundByName with
        | some c, _ => c.within (.key short)
        | none, some c => c.within (.key name)
        | none, none => .ok none
      Condition.node <$> required "field" text members
        <*> required "operator" (member Operator.named .unknownMember) members
        <*> optional "value" .null anything members
        <*> branch "and" "and_" (readUnder room "and" members) (readUnder room "and_" members)
        <*> branch "or" "or_" (readUnder room "or" members) (readUnder room "or_" members)
  | v => issue (if room = 0 then .tooDeep else .notRecord) v

def readUnder (room : Nat) (key : String) :
    List (String × Value) → Option (Checked (Option (List Condition)))
  | [] => none
  | (k, v) :: rest => if k = key then some (readBranch room v) else readUnder room key rest

def readBranch (room : Nat) : Value → Checked (Option (List Condition))
  | .null => .ok none
  | .list items => some <$> readItems room 0 items
  | v => issue .notList v

def readItems (room : Nat) (i : Nat) : List Value → Checked (List Condition)
  | [] => .ok []
  | v :: rest => (· :: ·) <$> (readWithin room v).within (.index i) <*> readItems room (i + 1) rest

end

def read : Read Condition := readWithin Value.depthLimit

mutual

/-- Why the tree cannot be written with room for so many nodes and values inside one another. -/
def writeErrors (room : Nat) : Condition → List WriteError
  | .node _ _ bound all any =>
    match room with
    | 0 => [.tooDeep]
    | room + 1 => bound.writeErrors room ++ (branchWriteErrors room all ++ branchWriteErrors room any)

def branchWriteErrors (room : Nat) : Option (List Condition) → List WriteError
  | none => []
  | some cs => childWriteErrors room cs

def childWriteErrors (room : Nat) : List Condition → List WriteError
  | [] => []
  | c :: cs => writeErrors room c ++ childWriteErrors room cs

end

mutual

/-- Every field of the tree: a node's own, then those of its children. -/
def fields : Condition → List String
  | .node field _ _ all any => field :: (branchFields all ++ branchFields any)

def branchFields : Option (List Condition) → List String
  | none => []
  | some cs => fieldsAll cs

def fieldsAll : List Condition → List String
  | [] => []
  | c :: cs => fields c ++ fieldsAll cs

end

end Condition

namespace Action

def read : Read Action := record fun m =>
  Action.mk <$> required "type" (member ActionType.named .unknownMember) m
    <*> optional "target_credential_id" none (nullable text) m
    <*> optional "target_property" none (nullable text) m
    <*> optional "target_property_value" .null anything m
    <*> optional "boost_amount" none (nullable double) m
    <*> optional "penalty_amount" none (nullable double) m
    <*> optional "reason" "" text m

/-- The action as an object; `free` says how the value it is gated on is written. -/
def toValueWith (free : Value → Value) (a : Action) : Value := .object
  [("type", .text a.type.name),
   ("target_credential_id", .ofOption .text a.target),
   ("target_property", .ofOption .text a.property),
   ("target_property_value", free a.propertyValue),
   ("boost_amount", .ofOption .float a.boost),
   ("penalty_amount", .ofOption .float a.penalty),
   ("reason", .text a.reason)]

def toValue (a : Action) : Value := a.toValueWith Value.finitePart

def writeErrors (a : Action) : List WriteError := a.propertyValue.writeErrors Value.depthLimit

end Action

namespace Rule

def read : Read Rule := record fun m =>
  Rule.mk <$> required "id" text m
    <*> required "label" text m
    <*> required "type" (member RuleType.named .unknownMember) m
    <*> optional "priority" 100 integer m
    <*> optional "enabled" true flag m
    <*> optional "expiry" none (nullable integer) m
    <*> required "condition" Condition.read m
    <*> required "action" Action.read m
    <*> optional "compiled_dsl" none (nullable text) m

def members (free : Value → Value) (r : Rule) : Keyed Value :=
  [("id", .text r.id),
   ("label", .text r.label),
   ("type", .text r.type.name),
   ("priority", .int r.priority),
   ("enabled", .bool r.enabled),
   ("expiry", .ofOption .int r.expiry),
   ("condition", r.condition.toValueWith free),
   ("action", r.action.toValueWith free),
   ("compiled_dsl", .ofOption .text r.compiled)]

def toValue (r : Rule) : Value := .object (r.members Value.finitePart)

/-- Why the rule cannot be written, if it cannot. -/
def writeErrors (r : Rule) : List WriteError := r.condition.writeErrors Value.depthLimit ++ r.action.writeErrors

def writeError? (r : Rule) : Option WriteError := r.writeErrors.head?

/-- Every member as it is, also a number that is not finite. -/
def exactMembers (r : Rule) : Keyed Value := r.members fun v => v

end Rule

namespace PolicyVersion

def read : Read PolicyVersion := record fun m =>
  (PolicyVersion.mk · · · · · · none) <$> required "version" text m
    <*> required "effective_date" integer m
    <*> required "signature_hash" text m
    <*> required "rules" (listOf Rule.read) m
    <*> optional "description" "" text m
    <*> optional "is_cached" false flag m

def cacheMark (p : PolicyVersion) : Value := p.cachedAs.getD (.bool p.cached)

def markCached (mark : Value) (p : PolicyVersion) : PolicyVersion :=
  match mark with
  | .bool b => { p with cached := b, cachedAs := none }
  | mark => { p with cached := mark.isPresent, cachedAs := some mark }

def toValue (p : PolicyVersion) : Value := .object
  [("version", .text p.version),
   ("effective_date", .int p.effectiveDate),
   ("signature_hash", .text p.signature),
   ("rules", .ofList Rule.toValue p.rules),
   ("description", .text p.description),
   ("is_cached", p.cacheMark.finitePart)]

def writeError? (p : PolicyVersion) : Option WriteError := p.rules.findSome? Rule.writeError?

end PolicyVersion

end WalletRouting
