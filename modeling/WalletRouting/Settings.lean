import WalletRouting.Schema.Record
import WalletRouting.Schema.Scalar

/-! # Settings of a deployment

Every setting has a default; a deployment overrides those it needs. Settings that are read may hold nothing else than
settings.
-/
namespace WalletRouting
set_option autoImplicit false

structure Settings where
  serviceName : String := "stop-engine"
  environment : String := "development"
  logLevel : String := "INFO"
  engineVersion : String := "2.0.0"
  host : String := "0.0.0.0"
  port : Int := 8000
  defaultPolicy : String := "2.0.0"
  vetoThreshold : Double := 0.75
  lowAmount : Double := 100.0
  mediumAmount : Double := 500.0
  highAmount : Double := 1500.0
  /-- How far sensitivity moves a weight. -/
  perturbation : Double := 0.1
  /-- Whether a stage sleeps for a share of its latency. -/
  paced : Bool := false
  issuer : String := "https://auth.example.com/realms/wallet"
  audience : String := "stop-policy-api"
  adminRole : String := "stop-policy-admin"
  authEnabled : Bool := false
  brokers : String := "kafka:9092"
  auditTopic : String := "stop.routing.audit"
  publishing : Bool := false
  deriving Repr

namespace Settings

open Schema

def names : List String :=
  ["app_name", "app_env", "log_level", "engine_version", "host", "port", "default_policy_version", "veto_threshold",
   "amount_threshold_low", "amount_threshold_medium", "amount_threshold_high", "sensitivity_perturbation",
   "simulate_stage_latency", "oidc_issuer_url", "oidc_audience", "policy_admin_role", "auth_enabled", "kafka_bootstrap",
   "kafka_topic_audit_events", "kafka_enabled"]

def read : Read Settings :=
  let d : Settings := {}
  record fun m =>
    (fun s _ => s) <$>
      (Settings.mk <$> optional "app_name" d.serviceName text m
        <*> optional "app_env" d.environment text m
        <*> optional "log_level" d.logLevel text m
        <*> optional "engine_version" d.engineVersion text m
        <*> optional "host" d.host text m
        <*> optional "port" d.port integer m
        <*> optional "default_policy_version" d.defaultPolicy text m
        <*> optional "veto_threshold" d.vetoThreshold double m
        <*> optional "amount_threshold_low" d.lowAmount double m
        <*> optional "amount_threshold_medium" d.mediumAmount double m
        <*> optional "amount_threshold_high" d.highAmount double m
        <*> optional "sensitivity_perturbation" d.perturbation double m
        <*> optional "simulate_stage_latency" d.paced flag m
        <*> optional "oidc_issuer_url" d.issuer text m
        <*> optional "oidc_audience" d.audience text m
        <*> optional "policy_admin_role" d.adminRole text m
        <*> optional "auth_enabled" d.authEnabled flag m
        <*> optional "kafka_bootstrap" d.brokers text m
        <*> optional "kafka_topic_audit_events" d.auditTopic text m
        <*> optional "kafka_enabled" d.publishing flag m)
      <*> nothingBeside names m

end Settings

end WalletRouting
