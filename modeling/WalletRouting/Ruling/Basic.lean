import WalletRouting.Policy.Rule

/-! # What the rules decided

A `Ruling` is the outcome of one evaluation: the override, who is excluded and why, who is boosted or
penalised and by which rule, and how each rule fared.
-/
namespace WalletRouting
set_option autoImplicit false

structure RuleOutcome where
  ruleId : String
  label : String
  type : RuleType
  matched : Bool
  reason : String
  action : Option String
  forced : Option String
  snippet : Option String
  deriving Repr

inductive Severity where
  | warning
  | critical
  deriving DecidableEq, Repr

namespace Severity

def name : Severity → String
  | .warning => "warning"
  | .critical => "critical"

def named : Keyed Severity := [.warning, .critical].map fun s => (s.name, s)

end Severity

/-- An exclusion that lost to the rule forcing the same credential. -/
structure Overridden where
  credentialId : String
  credentialName : String
  violation : String
  reason : String
  overriddenBy : String
  ruleId : String
  severity : Severity
  deriving Repr

structure Exclusion where
  credentialId : String
  credentialName : String
  reason : String
  ruleId : Option String
  stage : String
  deriving Repr

structure ForcingRule where
  id : String
  label : String
  deriving DecidableEq, Repr

structure Ruling where
  hardOverride : Bool := false
  forcedId : Option String := none
  forcedName : Option String := none
  forcingRule : Option ForcingRule := none
  excluded : Keyed String := []
  exclusions : List Exclusion := []
  overridden : List Overridden := []
  boosts : Keyed Number := []
  boostRules : Keyed String := []
  penalties : Keyed Number := []
  penaltyRules : Keyed String := []
  matched : List RuleOutcome := []
  failed : List RuleOutcome := []
  deriving Repr

open Schema

namespace RuleOutcome

def read : Read RuleOutcome := record fun m =>
  RuleOutcome.mk <$> required "rule_id" text m
    <*> required "rule_label" text m
    <*> required "rule_type" (member RuleType.named .unknownMember) m
    <*> required "matched" flag m
    <*> required "reason" text m
    <*> optional "action" none (nullable text) m
    <*> optional "forced_credential" none (nullable text) m
    <*> optional "dsl_snippet" none (nullable text) m

def toValue (o : RuleOutcome) : Value := .object
  [("rule_id", .text o.ruleId),
   ("rule_label", .text o.label),
   ("rule_type", .text o.type.name),
   ("matched", .bool o.matched),
   ("reason", .text o.reason),
   ("action", .ofOption .text o.action),
   ("forced_credential", .ofOption .text o.forced),
   ("dsl_snippet", .ofOption .text o.snippet)]

end RuleOutcome

namespace Overridden

def exclusionOverride : String := "EXCLUSION_OVERRIDE"

def read : Read Overridden := record fun m =>
  Overridden.mk <$> required "credential_id" text m
    <*> required "credential_name" text m
    <*> optional "violation_type" exclusionOverride text m
    <*> required "constraint" text m
    <*> required "overridden_by" text m
    <*> required "rule_id" text m
    <*> optional "severity" .warning (member Severity.named .unknownLiteral) m

def toValue (o : Overridden) : Value := .object
  [("credential_id", .text o.credentialId),
   ("credential_name", .text o.credentialName),
   ("violation_type", .text o.violation),
   ("constraint", .text o.reason),
   ("overridden_by", .text o.overriddenBy),
   ("rule_id", .text o.ruleId),
   ("severity", .text o.severity.name)]

end Overridden

namespace Exclusion

def read : Read Exclusion := record fun m =>
  Exclusion.mk <$> required "credential_id" text m
    <*> required "credential_name" text m
    <*> required "reason" text m
    <*> optional "rule_id" none (nullable text) m
    <*> required "stage" text m

def toValue (e : Exclusion) : Value := .object
  [("credential_id", .text e.credentialId),
   ("credential_name", .text e.credentialName),
   ("reason", .text e.reason),
   ("rule_id", .ofOption .text e.ruleId),
   ("stage", .text e.stage)]

end Exclusion

namespace ForcingRule

def read : Read ForcingRule := record fun m =>
  ForcingRule.mk <$> required "rule_id" text m <*> required "rule_label" text m

def toValue (r : ForcingRule) : Value := .object [("rule_id", .text r.id), ("rule_label", .text r.label)]

end ForcingRule

namespace Ruling

def toValue (r : Ruling) : Value := .object
  [("hard_rule_override", .bool r.hardOverride),
   ("forced_credential_id", .ofOption .text r.forcedId),
   ("forced_credential_name", .ofOption .text r.forcedName),
   ("forcing_rule", .ofOption ForcingRule.toValue r.forcingRule),
   ("excluded", .ofMap .text r.excluded),
   ("excluded_list", .ofList Exclusion.toValue r.exclusions),
   ("violations_overridden", .ofList Overridden.toValue r.overridden),
   ("boosts", .ofMap .num r.boosts),
   ("boost_rule_ids", .ofMap .text r.boostRules),
   ("penalties", .ofMap .num r.penalties),
   ("penalty_rule_ids", .ofMap .text r.penaltyRules),
   ("matched_rules", .ofList RuleOutcome.toValue r.matched),
   ("failed_rules", .ofList RuleOutcome.toValue r.failed)]

def summary (r : Ruling) : Value := .object
  [("total_matched", .nat r.matched.length),
   ("hard_overrides", .nat (if r.hardOverride then 1 else 0)),
   ("exclusions", .nat r.excluded.length),
   ("violations_overridden", .nat r.overridden.length),
   ("boosts", .nat r.boosts.length),
   ("penalties", .nat r.penalties.length)]

end Ruling

end WalletRouting
