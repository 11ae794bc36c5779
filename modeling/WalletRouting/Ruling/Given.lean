import WalletRouting.Score.Guidance

/-! # Rulings as they are given

A ruling may come from elsewhere, with members of any form. Each is looked at when a table asks for it, instrument by
instrument; `GivenRuling.check` finds what a table cannot use, and `GivenRuling.guidance` says what the rest means.
-/
namespace WalletRouting
set_option autoImplicit false

structure GivenRuling where
  hardOverride : Value
  forcedId : Value
  excluded : Value
  boosts : Value
  boostRules : Value
  penalties : Value
  penaltyRules : Value
  deriving Repr

namespace GivenRuling

def names : List String :=
  ["hard_rule_override", "forced_credential_id", "forced_credential_name", "forcing_rule", "excluded", "excluded_list",
   "violations_overridden", "boosts", "boost_rule_ids", "penalties", "penalty_rule_ids", "matched_rules",
   "failed_rules"]

/-- The ruling that an object gives, with nothing decided by the members it lacks. -/
def ofValue (v : Value) : Except Misuse GivenRuling :=
  match v with
  | .object ms =>
    let member (name : String) (default : Value) : Value := (Keyed.get? name ms).getD default
    if ms.all fun (name, _) => names.contains name then
      .ok
        { hardOverride := member "hard_rule_override" (.bool false)
          forcedId := member "forced_credential_id" .null
          excluded := member "excluded" (.object [])
          boosts := member "boosts" (.object [])
          boostRules := member "boost_rule_ids" (.object [])
          penalties := member "penalties" (.object [])
          penaltyRules := member "penalty_rule_ids" (.object []) }
    else .error (.wrongForm "a ruling has no such member")
  | v => .error (.wrongForm v.formName)

/-- What a member says of an instrument; null where it is silent. -/
def said (v : Value) (id : String) : Except Misuse Value := do return (← v.entry? id).getD .null

/-- The points given to an instrument, unless there is nothing to them, and the rule that gave them. -/
def points? (amounts rules : Value) (id : String) : Except Misuse (Option (Value × Value)) := do
  let amount ← said amounts id
  if amount.isPresent then return some (amount, ← said rules id) else return none

def checkPoints (amounts rules : Value) (id : String) : Except Misuse Unit := do
  match ← points? amounts rules id with
  | none => return ()
  | some (amount, rule) =>
    ((fun _ _ => ()) <$> (Schema.double amount).within (.key "amount")
      <*> (Schema.nullable Schema.text rule).within (.key "rule_id")).usable

def vetoed (g : GivenRuling) (assessments : Keyed RiskAssessment) (id : String) : Bool :=
  match assessments.get? id with
  | some a => a.veto && !g.hardOverride.isPresent
  | none => false

/-- Whether a table can use what is said of an instrument. What is said of one that passes no gate is not looked at
beyond that gate. -/
def check (g : GivenRuling) (assessments : Keyed RiskAssessment) (forced : Option String) (i : Instrument) :
    Except Misuse Unit := do
  let passes := decide (forced = some i.id)
  if !i.eligible && !passes then return ()
  let reason ← said g.excluded i.id
  if reason.isPresent && !passes then
    ((Schema.text reason).within (.key "exclusion_reason")).usable.map fun _ => ()
  else if g.vetoed assessments i.id && !passes then return ()
  else do
    checkPoints g.boosts g.boostRules i.id
    checkPoints g.penalties g.penaltyRules i.id

def fault? (g : GivenRuling) (assessments : Keyed RiskAssessment) (forced : Option String) (i : Instrument) :
    Option Misuse :=
  match g.check assessments forced i with
  | .ok () => none
  | .error m => some m

def adjustments (label : String) (amounts rules : Value) (id : String) : List Adjustment :=
  match points? amounts rules id with
  | .ok (some (amount, rule)) => [⟨label, (Schema.double amount).get?.getD 0, rule.text?⟩]
  | _ => []

def guidance (g : GivenRuling) : Guidance where
  hardOverride := g.hardOverride.isPresent
  reason id := ((said g.excluded id).toOption.bind Value.text?).getD ""
  bonuses := adjustments Guidance.boostLabel g.boosts g.boostRules
  penalties := adjustments Guidance.penaltyLabel g.penalties g.penaltyRules
  fault? := g.fault?

/-- The id that an override routes to, if it does. -/
def override? (g : GivenRuling) : Option Value :=
  if g.hardOverride.isPresent && g.forcedId.isPresent then some g.forcedId else none

end GivenRuling

end WalletRouting
