import WalletRouting.Audit.Difference
import WalletRouting.Run.Stage
import WalletRouting.Schema.Misuse
import WalletRouting.Score.Sensitivity

/-! # Kinds of records

Every kind of record has a name, under which a value is read as a record of that kind and written out again.
-/
namespace WalletRouting
set_option autoImplicit false

namespace RecordKind

open Schema

/-- Reads a record that can always be written, and writes it. -/
def plain {α : Type} (read : Read α) (write : α → Value) : Value → Except Misuse Value :=
  fun v => do return write (← (read v).usable)

/-- Reads a record that holds values of any form, and writes it if they can be written. -/
def free {α : Type} (read : Read α) (writeError? : α → Option WriteError) (write : α → Value) :
    Value → Except Misuse Value := fun v => do
  let a ← (read v).usable
  match writeError? a with
  | some e => throw (.unwritable e)
  | none => return write a

def ofTerms : Read Terms := record Terms.readFrom

def selectionOf (type : String) (readFrom : Keyed Value → Checked Selection) : Read Selection := record fun m =>
  (fun (_ : Unit) s => s) <$> optional "type" () (member [(type, ())] .unknownLiteral) m <*> readFrom m

/-- Every kind by its name. Of the most general kind there are no records. -/
def named : Keyed (Value → Except Misuse Value) :=
  [("BaseModel", fun _ => .error .noKind),
   ("TransactionContext", plain Transaction.read Transaction.toValue),
   ("SignupBonus", plain SignupBonus.read SignupBonus.toValue),
   ("CredentialFields", free ofTerms Terms.writeError? fun t => .object t.members),
   ("Credential", free Credential.read (fun c => c.toTerms.writeError?) Credential.toValue),
   ("RoutingCredential", free RoutingCredential.read RoutingCredential.writeError? RoutingCredential.toValue),
   ("ScoringWeights", plain Weights.read Weights.toValue),
   ("UserProfile", free User.read User.writeError? User.toValue),
   ("RuleCondition", free Condition.read (fun c => (c.writeErrors Value.depthLimit).head?) Condition.toValue),
   ("RuleAction", free Action.read (fun a => a.writeErrors.head?) Action.toValue),
   ("Rule", free Rule.read Rule.writeError? Rule.toValue),
   ("PolicyVersion", free PolicyVersion.read PolicyVersion.writeError? PolicyVersion.toValue),
   ("RiskAssessment", plain RiskAssessment.read RiskAssessment.toValue),
   ("RuleEvaluationResult", plain RuleOutcome.read RuleOutcome.toValue),
   ("ViolationOverride", plain Overridden.read Overridden.toValue),
   ("ExcludedCredential", plain Exclusion.read Exclusion.toValue),
   ("SubscoreBreakdown", plain Subscore.read Subscore.toValue),
   ("Subscores", plain Subscores.read Subscores.toValue),
   ("ScoreAdjustment", plain Adjustment.read Adjustment.toValue),
   ("ScoreBreakdown", plain ScoreRow.read ScoreRow.toValue),
   ("SensitivityResult", plain Nudge.read Nudge.toValue),
   ("DRTResolution", free Resolution.read Resolution.writeError? Resolution.toValue),
   ("StageError", plain StageFault.read StageFault.toValue),
   ("LogEntry", plain LogEntry.read LogEntry.toValue),
   ("StageResult", free StageResult.read StageResult.writeError? StageResult.toValue),
   ("Span", plain Span.read Span.toValue),
   ("TraceData", free Trace.read Trace.writeError? Trace.toValue),
   ("AuthorizationResult", plain Authorization.read Authorization.toValue),
   ("ForcedSelection", plain (selectionOf "FORCED" Selection.readForced) Selection.toValue),
   ("AutoSelection", plain (selectionOf "AUTO" Selection.readAuto) Selection.toValue),
   ("ShadowOptimization", plain Shadow.read Shadow.toValue),
   ("StageTiming", plain StageTiming.read StageTiming.toValue),
   ("AuditRecord", free AuditRecord.read AuditRecord.writeError? AuditRecord.toValue),
   ("ScoreDelta", plain ScoreDelta.read ScoreDelta.toValue),
   ("DiffReport", plain Difference.read Difference.toValue)]

end RecordKind

end WalletRouting
