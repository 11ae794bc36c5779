import WalletRouting.Policy.Active
import WalletRouting.Policy.Gate
import WalletRouting.Ruling.Basic

/-! # Evaluating a policy

Rules run in order of priority over the eligible instruments. Exclusions wait until every rule has run; one
that hits the forced credential is then recorded as overridden, every other one takes effect. A rule that
hits nothing still counts as matched when its condition holds of a placeholder card.
-/
namespace WalletRouting
set_option autoImplicit false

namespace Ruling

def stageName : String := "Rule Evaluation"

/-- Stands in for a card where a condition looks at the transaction or the user only. -/
def placeholder : Instrument := .card
  { id := "placeholder", name := "Placeholder", dpan := "**** 0000", network := .visa, limit := 0, balance := 0,
    utilization := 0, apr := 0, foreignFee := 0, blockedMccs := [], rewards := [], eligible := true,
    cashbackRate := 0, signupBonus := none, metadata := [], kind := .credit }

structure Pending where
  reason : String
  ruleId : String
  credentialName : String
  deriving Repr

/-- A ruling in the making, with the exclusions that wait. -/
structure Tally where
  ruling : Ruling
  pending : Keyed Pending

def blockReason : String := "Transaction blocked by rule"

def force (r : Rule) (names : Keyed String) (s : Ruling) : Ruling :=
  { s with
    hardOverride := true
    forcedId := r.action.target
    forcedName := r.action.target.bind fun id => names.get? id
    forcingRule := some ⟨r.id, r.label⟩ }

def boost (r : Rule) (id : String) (s : Ruling) : Ruling :=
  { s with
    boosts := s.boosts.put id (((s.boosts.get? id).getD (.int 0)).add (Action.amountOrZero r.action.boost))
    boostRules := s.boostRules.put id r.id }

def penalize (r : Rule) (id : String) (s : Ruling) : Ruling :=
  { s with
    penalties := s.penalties.put id (((s.penalties.get? id).getD (.int 0)).add (Action.amountOrZero r.action.penalty))
    penaltyRules := s.penaltyRules.put id r.id }

def exclude (r : Rule) (reason : String) (i : Instrument) (t : Tally) : Tally :=
  { t with pending := t.pending.put i.id ⟨reason, r.id, i.name⟩ }

/-- What a rule does to an instrument its condition holds of. Only hard rules force. -/
def hit (r : Rule) (names : Keyed String) (t : Tally) (i : Instrument) : Tally :=
  match r.action.type with
  | .force => if r.type = .hard then { t with ruling := force r names t.ruling } else t
  | .exclude => if r.action.targets i then exclude r r.action.reason i t else t
  | .boost => if r.action.targets i then { t with ruling := boost r i.id t.ruling } else t
  | .penalize => if r.action.targets i then { t with ruling := penalize r i.id t.ruling } else t
  | .block => exclude r blockReason i t

/-- The eligible instruments a rule's condition holds of. -/
def hits (r : Rule) (t : Transaction) (u : User) (instruments : List Instrument) : List Instrument :=
  instruments.filter fun i => i.eligible && r.condition.holds t i u

def matchedOutcome (r : Rule) : RuleOutcome where
  ruleId := r.id
  label := r.label
  type := r.type
  matched := true
  reason := r.action.reason
  action := some r.action.type.name
  forced := if r.action.type = .force then r.action.target else none
  snippet := some r.snippet

def failedOutcome (reason : String) (r : Rule) : RuleOutcome where
  ruleId := r.id
  label := r.label
  type := r.type
  matched := false
  reason := reason
  action := none
  forced := none
  snippet := some r.snippet

def expiredReason : String := "Rule has expired"

def unmetReason : String := "Condition not satisfied"

def addMatched (r : Rule) (s : Ruling) : Ruling := { s with matched := s.matched ++ [matchedOutcome r] }

def addFailed (reason : String) (r : Rule) (s : Ruling) : Ruling :=
  { s with failed := s.failed ++ [failedOutcome reason r] }

def applyRule (t : Transaction) (u : User) (instruments : List Instrument) (names : Keyed String) (now : Int)
    (tally : Tally) (r : Rule) : Tally :=
  if r.expired now then { tally with ruling := addFailed expiredReason r tally.ruling }
  else
    let touched := hits r t u instruments
    let tally := touched.foldl (hit r names) tally
    if !touched.isEmpty || r.condition.holds t placeholder u then
      { tally with ruling := addMatched r tally.ruling }
    else { tally with ruling := addFailed unmetReason r tally.ruling }

/-- Settles one exclusion against the forced credential. -/
def settle (s : Ruling) (entry : String × Pending) : Ruling :=
  let (id, p) := entry
  if s.hardOverride ∧ s.forcedId = some id then
    { s with overridden := s.overridden ++
      [{ credentialId := id
         credentialName := p.credentialName
         violation := Overridden.exclusionOverride
         reason := p.reason
         overriddenBy :=
           match s.forcingRule with
           | some f => f.label
           | none => "Hard Rule"
         ruleId := p.ruleId
         severity := .warning }] }
  else
    { s with
      excluded := s.excluded.put id p.reason
      exclusions := s.exclusions ++ [⟨id, p.credentialName, p.reason, some p.ruleId, stageName⟩] }

/-- Names by id; the last instrument of an id gives its name. -/
def namesOf (instruments : List Instrument) : Keyed String :=
  Keyed.ofPairs (instruments.map fun i => (i.id, i.name))

def tally (rules : List Rule) (t : Transaction) (instruments : List Instrument) (u : User) (now : Int) : Tally :=
  (Rule.active rules).foldl (applyRule t u instruments (namesOf instruments) now) ⟨{}, []⟩

def evaluate (rules : List Rule) (t : Transaction) (instruments : List Instrument) (u : User) (now : Int) : Ruling :=
  let result := tally rules t instruments u now
  result.pending.foldl settle result.ruling

end Ruling

end WalletRouting
