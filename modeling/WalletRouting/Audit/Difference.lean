import WalletRouting.Audit.Record

/-! # Why two runs picked different routes

Scores are compared by id; a credential that an earlier record does not have counts as zero there. Changes of
half a point or less are noise.
-/
namespace WalletRouting
set_option autoImplicit false

structure ScoreDelta where
  credentialId : String
  credentialName : String
  previous : Double
  new : Double
  delta : Double
  deriving Repr

structure Difference where
  previousRoute : String
  newRoute : String
  stage : String
  reason : String
  deltas : List ScoreDelta
  deriving Repr

open Schema

namespace ScoreDelta

def read : Read ScoreDelta := record fun m =>
  ScoreDelta.mk <$> required "credential_id" text m
    <*> required "credential_name" text m
    <*> required "previous_score" double m
    <*> required "new_score" double m
    <*> required "delta" double m

def toValue (d : ScoreDelta) : Value := .object
  [("credential_id", .text d.credentialId),
   ("credential_name", .text d.credentialName),
   ("previous_score", .float d.previous),
   ("new_score", .float d.new),
   ("delta", .float d.delta)]

end ScoreDelta

namespace Difference

def read : Read Difference := record fun m =>
  Difference.mk <$> required "previous_selection" text m
    <*> required "new_selection" text m
    <*> required "changed_at_stage" text m
    <*> required "reason" text m
    <*> required "score_deltas" (listOf ScoreDelta.read) m

def toValue (d : Difference) : Value := .object
  [("previous_selection", .text d.previousRoute),
   ("new_selection", .text d.newRoute),
   ("changed_at_stage", .text d.stage),
   ("reason", .text d.reason),
   ("score_deltas", .ofList ScoreDelta.toValue d.deltas)]

/-- Final scores by id; the last row of an id counts. -/
def scoresOf (rows : List ScoreRow) : Keyed Double := Keyed.ofPairs (rows.map fun r => (r.credentialId, r.final))

/-- The change of one row, if it is more than noise. -/
def deltaOf (before : Keyed Double) (row : ScoreRow) : Option ScoreDelta :=
  let previous := (before.get? row.credentialId).getD 0.0
  let delta := (row.final - previous).roundPlaces 2
  if 0.5 < delta ∨ delta < -0.5 then some ⟨row.credentialId, row.credentialName, previous, row.final, delta⟩ else none

/-- What changed from one record to the next; nothing when the route is the same. -/
def between (previous current : AuditRecord) : Option Difference :=
  if previous.route = current.route then none
  else
    let deltas := current.rows.filterMap (deltaOf (scoresOf previous.rows))
    some <|
      if current.hardOverride then
        ⟨previous.route, current.route, "Rule Evaluation", "Hard rule override changed selection", deltas⟩
      else
        ⟨previous.route, current.route, "Optimization Scoring", "Score optimization resulted in different winner",
          deltas⟩

end Difference

end WalletRouting
