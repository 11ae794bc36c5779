import WalletRouting.Ordered
import WalletRouting.Policy.Validity
import WalletRouting.Score.Criteria
import WalletRouting.Score.Guidance

/-! # The score table

Every instrument gets one row. Three gates exclude: the instrument is not eligible, a rule excludes it, or
its risk is vetoed; the forced instrument passes them all. Rows that pass stand first, by descending score
and otherwise in wallet order; excluded rows follow in wallet order.
-/
namespace WalletRouting
set_option autoImplicit false

namespace Weights

/-- The weights as a user may give them; a weight below zero or not a number is refused. -/
def validate (w : Weights) : Schema.Checked Weights := read w.toValue

/-- Weights that sum to one, or balanced weights if all are zero. -/
def normalize (w : Weights) : Schema.Checked Weights :=
  let total := w.total
  if total == 0.0 then .ok balanced
  else validate ⟨w.rewards / total, w.credit / total, w.cashflow / total, w.risk / total⟩

end Weights

namespace Subscore

def weigh (weight : Double) (s : Subscore) : Subscore :=
  { s with weight := weight, weighted := (s.normalized * weight).roundPlaces 2 }

end Subscore

/-- Where and why an instrument was left out of the ranking. -/
structure GateClosed where
  reason : String
  stage : String
  deriving Repr

inductive TableError where
  | unusableWeights (issues : List Schema.Issue)
  | unusableGuidance (m : Misuse)
  deriving Repr

def TableError.message : TableError → String
  | .unusableWeights issues => Schema.summary "ScoringWeights" issues
  | .unusableGuidance m => m.message

structure ScoreTable where
  rows : List ScoreRow
  top : Option ScoreRow
  candidates : Nat
  excluded : Nat
  weights : Weights
  deriving Repr

namespace ScoreTable

/-- The first gate that an instrument fails. A rule that excludes without a reason closes no gate. -/
def gate? (s : Guidance) (assessments : Keyed RiskAssessment) (forced : Option String) (i : Instrument) :
    Option GateClosed :=
  if forced = some i.id then none
  else if !i.eligible then some ⟨"Credential not eligible", "Profile Fetch"⟩
  else
    let byRule := s.reason i.id
    if byRule ≠ "" then some ⟨byRule, "Rule Evaluation"⟩
    else
      match assessments.get? i.id with
      | some a =>
        if a.veto && !s.hardOverride then
          some ⟨if given a.vetoReason then a.vetoReason.getD "" else "Risk veto", "Candidate Filtering"⟩
        else none
      | none => none

def closedRow (i : Instrument) (g : GateClosed) : ScoreRow where
  credentialId := i.id
  credentialName := i.name
  subscores := ⟨{}, {}, {}, {}⟩
  bonuses := []
  penalties := []
  totalBonuses := 0
  totalPenalties := 0
  base := 0
  final := 0
  ranking := 0
  excluded := true
  exclusionReason := some g.reason
  exclusionStage := some g.stage

def sumAmounts (xs : List Adjustment) : Double := xs.foldl (fun sum a => sum + a.amount) 0.0

def openRow (weights : Weights) (t : Transaction) (u : User) (s : Guidance) (assessments : Keyed RiskAssessment)
    (i : Instrument) : ScoreRow :=
  let subscores : Subscores :=
    { rewards := (Subscore.rewards i.terms t).weigh weights.rewards
      credit := (Subscore.credit i t).weigh weights.credit
      cashflow := (Subscore.cashflow i t u).weigh weights.cashflow
      risk := (Subscore.risk (assessments.get? i.id)).weigh weights.risk }
  let base := (Subscores.sumOf fun c => (subscores.get c).weighted).roundPlaces 2
  let bonuses := s.bonuses i.id
  let penalties := s.penalties i.id
  let added := sumAmounts bonuses
  let taken := sumAmounts penalties
  { credentialId := i.id
    credentialName := i.name
    subscores := subscores
    bonuses := bonuses
    penalties := penalties
    totalBonuses := added
    totalPenalties := taken
    base := base
    final := (Double.clamp 0 100 (base + added - taken)).roundPlaces 2
    ranking := 0
    excluded := false
    exclusionReason := none
    exclusionStage := none }

def row (weights : Weights) (t : Transaction) (u : User) (s : Guidance) (assessments : Keyed RiskAssessment)
    (forced : Option String) (i : Instrument) : ScoreRow :=
  match gate? s assessments forced i with
  | some g => closedRow i g
  | none => openRow weights t u s assessments i

def scoreLe (a b : ScoreRow) : Bool := b.final ≤ a.final

def numberFrom (n : Int) : List ScoreRow → List ScoreRow
  | [] => []
  | r :: rest => { r with ranking := n } :: numberFrom (n + 1) rest

def ranked (rows : List ScoreRow) : List ScoreRow :=
  numberFrom 1 (Ordered.sort scoreLe (rows.filter fun r => !r.excluded) ++ rows.filter fun r => r.excluded)

def ofRows (weights : Weights) (rows : List ScoreRow) : ScoreTable where
  rows := ranked rows
  top := (ranked rows).find? fun r => !r.excluded
  candidates := (rows.filter fun r => !r.excluded).length
  excluded := (rows.filter fun r => r.excluded).length
  weights := weights

/-- The table, unless the normalised weights are refused or something that is said of an instrument cannot be used. -/
def ofInstruments (instruments : List Instrument) (t : Transaction) (u : User) (s : Guidance)
    (assessments : Keyed RiskAssessment) (forced : Option String) : Except TableError ScoreTable :=
  match u.weights.normalize with
  | .bad issues => .error (.unusableWeights issues)
  | .ok weights =>
    match instruments.findSome? (s.fault? assessments forced) with
    | some m => .error (.unusableGuidance m)
    | none => .ok (ofRows weights (instruments.map (row weights t u s assessments forced)))

/-- The id that is routed to: the forced one under an override, else the top of the table. -/
def selected? (table : ScoreTable) (s : Ruling) : Option String :=
  if s.hardOverride ∧ given s.forcedId then s.forcedId else table.top.map (·.credentialId)

end ScoreTable

end WalletRouting
