import WalletRouting.Audit.Record
import WalletRouting.Score.Table

/-! # The stages of a run

Thirteen stages in a fixed order, each with the range its simulated latency is drawn from, and what each of them
puts out.
-/
namespace WalletRouting
set_option autoImplicit false

inductive Stage where
  | ingest
  | context
  | profile
  | policyLoad
  | compile
  | evaluation
  | filtering
  | scoring
  | selection
  | resolution
  | injection
  | authorization
  | audit
  deriving DecidableEq, Repr

namespace Stage

def all : List Stage :=
  [.ingest, .context, .profile, .policyLoad, .compile, .evaluation, .filtering, .scoring, .selection, .resolution,
   .injection, .authorization, .audit]

def index : Stage → Nat
  | .ingest => 0
  | .context => 1
  | .profile => 2
  | .policyLoad => 3
  | .compile => 4
  | .evaluation => 5
  | .filtering => 6
  | .scoring => 7
  | .selection => 8
  | .resolution => 9
  | .injection => 10
  | .authorization => 11
  | .audit => 12

def name : Stage → String
  | .ingest => "Ingest Event"
  | .context => "Context Extraction"
  | .profile => "Profile Fetch"
  | .policyLoad => "Policy Load"
  | .compile => "Rule Compile"
  | .evaluation => "Rule Evaluation"
  | .filtering => "Candidate Filtering"
  | .scoring => "Optimization Scoring"
  | .selection => "Route Selection"
  | .resolution => "DRT Resolution"
  | .injection => "Credential Injection"
  | .authorization => "Authorization Gateway"
  | .audit => "Audit Record Emit"

def latencyRange : Stage → Int × Int
  | .ingest => (2, 6)
  | .context => (6, 12)
  | .profile => (10, 25)
  | .policyLoad => (14, 30)
  | .compile => (8, 16)
  | .evaluation => (4, 10)
  | .filtering => (6, 14)
  | .scoring => (18, 45)
  | .selection => (3, 8)
  | .resolution => (5, 12)
  | .injection => (7, 15)
  | .authorization => (80, 220)
  | .audit => (4, 10)

end Stage

inductive StageOutput where
  | ingested (correlationId : String)
  | enriched (t : Transaction)
  | fetched (credentials routers : Nat)
  | loaded (version : String) (cached pinned : Bool) (signature : String) (latency : Int)
  | compiled (rules active : Nat)
  | evaluated (matched failed : Nat) (hardOverride : Bool) (forced : Option String)
  | filtered (candidates excluded : Int) (vetoed : List String)
  | scored (candidates : Nat) (top : Option ScoreRow)
  | selected (id : Option String) (isRouter : Bool) (shadow : Option String)
  | skipped
  | resolved (child reason : String)
  | injected (id dpan : Option String)
  | authorized (a : Authorization)
  | emitted (total : Int) (errors : Nat)
  deriving Repr

namespace StageOutput

def members : StageOutput → Keyed Value
  | .ingested correlationId => [("acknowledged", .bool true), ("correlation_id", .text correlationId)]
  | .enriched t => [("enriched_context", t.toValue)]
  | .fetched credentials routers =>
    [("credential_count", .nat credentials), ("routing_credential_count", .nat routers)]
  | .loaded version cached pinned signature latency =>
    [("version", .text version), ("cache_hit", .bool cached), ("pinned", .bool pinned),
     ("signature", .text signature), ("fetch_latency_ms", .int latency)]
  | .compiled rules active => [("rule_count", .nat rules), ("compiled_count", .nat active)]
  | .evaluated matched failed hardOverride forced =>
    [("matched_count", .nat matched), ("failed_count", .nat failed), ("hard_override", .bool hardOverride),
     ("forced_credential", .ofOption .text forced)]
  | .filtered candidates excluded vetoed =>
    [("candidate_count", .int candidates), ("excluded_count", .int excluded), ("vetoed", .ofList .text vetoed)]
  | .scored candidates top =>
    [("candidate_count", .nat candidates), ("top_credential", .ofOption (fun r => .text r.credentialId) top),
     ("top_score", .ofOption (fun r => .float r.final) top)]
  | .selected id isRouter shadow =>
    [("selected_credential", .ofOption .text id), ("is_drt", .bool isRouter),
     ("shadow_winner", .ofOption .text shadow)]
  | .skipped => [("skipped", .bool true), ("selected_child", .null), ("reason", .null)]
  | .resolved child reason =>
    [("skipped", .bool false), ("selected_child", .text child), ("reason", .text reason)]
  | .injected id dpan => [("final_credential", .ofOption .text id), ("final_dpan", .ofOption .text dpan)]
  | .authorized a => a.members
  | .emitted total errors => [("total_time_ms", .int total), ("error_count", .nat errors)]

end StageOutput

/-- How a stage that did not fail came out. -/
structure StageOutcome where
  output : StageOutput
  inputs : Keyed Value := []
  status : StageStatus := .completed

end WalletRouting
