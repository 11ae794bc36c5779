import WalletRouting.Resolution.Basic
import WalletRouting.Ruling.Basic
import WalletRouting.Trace.Basic

/-! # Audit records

What a run decided, why, and how it came out. A record can be written and read back.
-/
namespace WalletRouting
set_option autoImplicit false

structure Authorization where
  approved : Bool
  code : Option String
  declineReason : Option String
  responseCode : String
  processingTime : Int
  declineProbability : Double
  deriving Repr

inductive Selection where
  | forced (ruleId label : String)
  | auto (reason : String)
  deriving DecidableEq, Repr

/-- What would have been picked had no rule forced another route. -/
structure Shadow where
  wouldHave : String
  wouldHaveName : String
  wouldHaveScore : Double
  actual : String
  actualName : String
  actualScore : Double
  reason : String
  deriving Repr

structure AuditRecord where
  correlationId : String
  seed : Int
  userId : String
  policyVersion : String
  shortSignature : String
  cacheHit : Bool
  pinned : Bool
  route : String
  routeName : String
  dpan : String
  selection : Selection
  isRouter : Bool
  routerId : Option String
  childId : Option String
  childName : Option String
  resolution : Option Resolution
  hardOverride : Bool
  shadow : Option Shadow
  matched : List RuleOutcome
  failed : List RuleOutcome
  weights : Weights
  rows : List ScoreRow
  candidates : List ScoreRow
  exclusions : List Exclusion
  overridden : List Overridden
  risk : Double
  decline : Double
  authorization : Option Authorization
  processingTime : Int
  timings : List StageTiming
  spans : List Span
  errors : List StageFault
  timestamp : Int
  deriving Repr

open Schema

namespace Authorization

def read : Read Authorization := record fun m =>
  Authorization.mk <$> required "approved" flag m
    <*> optional "auth_code" none (nullable text) m
    <*> optional "decline_reason" none (nullable text) m
    <*> required "response_code" text m
    <*> required "processing_time_ms" integer m
    <*> required "decline_probability" double m

def members (a : Authorization) : Keyed Value :=
  [("approved", .bool a.approved),
   ("auth_code", .ofOption .text a.code),
   ("decline_reason", .ofOption .text a.declineReason),
   ("response_code", .text a.responseCode),
   ("processing_time_ms", .int a.processingTime),
   ("decline_probability", .float a.declineProbability)]

def toValue (a : Authorization) : Value := .object a.members

end Authorization

namespace Selection

def typeName : Selection → String
  | .forced .. => "FORCED"
  | .auto _ => "AUTO"

def scored : String := "Optimization scoring"

def readForced (m : Keyed Value) : Checked Selection :=
  Selection.forced <$> required "rule_id" text m <*> required "rule_label" text m

def readAuto (m : Keyed Value) : Checked Selection :=
  Selection.auto <$> optional "reason" scored text m

/-- The member `type` says which selection it is; issues inside name that type in their path. -/
def read : Read Selection
  | .object m =>
    match Keyed.get? "type" m with
    | none => issue .tagMissing (.object m)
    | some (.text "FORCED") => (readForced m).within (.key "FORCED")
    | some (.text "AUTO") => (readAuto m).within (.key "AUTO")
    | some _ => issue .tagUnknown (.object m)
  | v => issue .notAttributes v

def toValue : Selection → Value
  | .forced ruleId label => .object
    [("type", .text "FORCED"), ("rule_id", .text ruleId), ("rule_label", .text label)]
  | .auto reason => .object [("type", .text "AUTO"), ("reason", .text reason)]

end Selection

namespace Shadow

def read : Read Shadow := record fun m =>
  Shadow.mk <$> required "would_have_selected" text m
    <*> required "would_have_selected_name" text m
    <*> required "would_have_score" double m
    <*> required "actual_selected" text m
    <*> required "actual_selected_name" text m
    <*> required "actual_score" double m
    <*> required "reason" text m

def toValue (s : Shadow) : Value := .object
  [("would_have_selected", .text s.wouldHave),
   ("would_have_selected_name", .text s.wouldHaveName),
   ("would_have_score", .float s.wouldHaveScore),
   ("actual_selected", .text s.actual),
   ("actual_selected_name", .text s.actualName),
   ("actual_score", .float s.actualScore),
   ("reason", .text s.reason)]

end Shadow

namespace AuditRecord

def read : Read AuditRecord := record fun m =>
  AuditRecord.mk <$> required "correlation_id" text m
    <*> required "replay_seed" integer m
    <*> required "user_id" text m
    <*> required "policy_version" text m
    <*> required "policy_signature_short" text m
    <*> required "policy_cache_hit" flag m
    <*> required "pinned_policy" flag m
    <*> required "selected_route" text m
    <*> required "selected_route_name" text m
    <*> required "selected_dpan" text m
    <*> required "selection_method" Selection.read m
    <*> required "is_drt" flag m
    <*> optional "drt_id" none (nullable text) m
    <*> optional "resolved_child_credential" none (nullable text) m
    <*> optional "resolved_child_name" none (nullable text) m
    <*> optional "drt_resolution" none (nullable Resolution.read) m
    <*> required "hard_rule_override" flag m
    <*> optional "shadow_optimization" none (nullable Shadow.read) m
    <*> required "matched_rules" (listOf RuleOutcome.read) m
    <*> required "failed_rules" (listOf RuleOutcome.read) m
    <*> required "weights_used" Weights.read m
    <*> required "score_breakdown" (listOf ScoreRow.read) m
    <*> required "candidate_scores" (listOf ScoreRow.read) m
    <*> required "excluded_credentials" (listOf Exclusion.read) m
    <*> required "violations_overridden" (listOf Overridden.read) m
    <*> required "risk_score" double m
    <*> required "decline_probability" double m
    <*> optional "auth_result" none (nullable Authorization.read) m
    <*> required "processing_time_ms" integer m
    <*> required "stage_timings" (listOf StageTiming.read) m
    <*> required "spans" (listOf Span.read) m
    <*> required "errors" (listOf StageFault.read) m
    <*> required "timestamp" integer m

/-- Why the resolution cannot be written, if it cannot; nothing else in a record is free-form. -/
def writeError? (r : AuditRecord) : Option WriteError := r.resolution.bind Resolution.writeError?

def toValue (r : AuditRecord) : Value := .object
  [("correlation_id", .text r.correlationId),
   ("replay_seed", .int r.seed),
   ("user_id", .text r.userId),
   ("policy_version", .text r.policyVersion),
   ("policy_signature_short", .text r.shortSignature),
   ("policy_cache_hit", .bool r.cacheHit),
   ("pinned_policy", .bool r.pinned),
   ("selected_route", .text r.route),
   ("selected_route_name", .text r.routeName),
   ("selected_dpan", .text r.dpan),
   ("selection_method", r.selection.toValue),
   ("is_drt", .bool r.isRouter),
   ("drt_id", .ofOption .text r.routerId),
   ("resolved_child_credential", .ofOption .text r.childId),
   ("resolved_child_name", .ofOption .text r.childName),
   ("drt_resolution", .ofOption Resolution.toValue r.resolution),
   ("hard_rule_override", .bool r.hardOverride),
   ("shadow_optimization", .ofOption Shadow.toValue r.shadow),
   ("matched_rules", .ofList RuleOutcome.toValue r.matched),
   ("failed_rules", .ofList RuleOutcome.toValue r.failed),
   ("weights_used", r.weights.toValue),
   ("score_breakdown", .ofList ScoreRow.toValue r.rows),
   ("candidate_scores", .ofList ScoreRow.toValue r.candidates),
   ("excluded_credentials", .ofList Exclusion.toValue r.exclusions),
   ("violations_overridden", .ofList Overridden.toValue r.overridden),
   ("risk_score", .float r.risk),
   ("decline_probability", .float r.decline),
   ("auth_result", .ofOption Authorization.toValue r.authorization),
   ("processing_time_ms", .int r.processingTime),
   ("stage_timings", .ofList StageTiming.toValue r.timings),
   ("spans", .ofList Span.toValue r.spans),
   ("errors", .ofList StageFault.toValue r.errors),
   ("timestamp", .int r.timestamp)]

end AuditRecord

end WalletRouting
