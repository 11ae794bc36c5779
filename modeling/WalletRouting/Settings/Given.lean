import WalletRouting.Risk.Given
import WalletRouting.Settings

/-! # Settings as they are given

A deployment that is not checked gives the settings it overrides by name, in any form, and each is looked at when it is
used. A switch is on when there is something to what it is set to.
-/
namespace WalletRouting
set_option autoImplicit false

/-- The settings that a run, a registry and a publisher use. -/
structure GivenSettings where
  limits : GivenLimits
  /-- How far sensitivity moves a weight. -/
  perturbation : Value
  /-- Whether a stage sleeps for a share of its latency. -/
  paced : Bool
  defaultPolicy : Value
  publishing : Bool
  brokers : Value
  auditTopic : Value
  deriving Repr

namespace GivenSettings

def ofSettings (s : Settings) : GivenSettings where
  limits := .ofLimits s.riskLimits
  perturbation := .float s.perturbation
  paced := s.paced
  defaultPolicy := .text s.defaultPolicy
  publishing := s.publishing
  brokers := .text s.brokers
  auditTopic := .text s.auditTopic

def overridden (given : Keyed Value) (s : GivenSettings) : GivenSettings :=
  let value (name : String) (default : Value) : Value := (given.get? name).getD default
  { limits :=
      { veto := value "veto_threshold" s.limits.veto
        low := value "amount_threshold_low" s.limits.low
        medium := value "amount_threshold_medium" s.limits.medium
        high := value "amount_threshold_high" s.limits.high }
    perturbation := value "sensitivity_perturbation" s.perturbation
    paced := (value "simulate_stage_latency" (.bool s.paced)).isPresent
    defaultPolicy := value "default_policy_version" s.defaultPolicy
    publishing := (value "kafka_enabled" (.bool s.publishing)).isPresent
    brokers := value "kafka_bootstrap" s.brokers
    auditTopic := value "kafka_topic_audit_events" s.auditTopic }

/-- The default settings with those that an object gives; what is no setting cannot be given. -/
def ofValue (v : Value) : Except Misuse GivenSettings :=
  match v with
  | .object given =>
    if given.all fun (name, _) => Settings.names.contains name then
      .ok ((ofSettings {}).overridden given)
    else .error .noMember
  | v => if v.isPresent then .error .noMember else .ok (ofSettings {})

end GivenSettings

end WalletRouting
