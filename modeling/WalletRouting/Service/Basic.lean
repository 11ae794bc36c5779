import WalletRouting.Access.Guard
import WalletRouting.Audit.Difference
import WalletRouting.Audit.Publisher
import WalletRouting.Run.Operation
import WalletRouting.Service.Endpoint

/-! # The service

A request is answered in this order: the endpoint is looked up, the body is read as JSON, the administrator is
recognised where one is needed, the body is read as what the endpoint takes, and only then does the endpoint act.
-/
namespace WalletRouting
set_option autoImplicit false

/-- Claims come from tokens, or are taken as given. -/
inductive Verifier where
  | tokens (i : Identity)
  | trusted (claims : Value)

/-- Runs use the settings of the deployment. Requests are checked, and health is told, by `settings`; where those are
refused, what asks for them fails. -/
structure Service where
  deployment : Settings
  settings : Schema.Checked Settings
  verifier : Verifier
  keys : KeyCache
  publisher : Publisher
  broker : Conduct
  world : World
  /-- The time of runs. -/
  time : Int
  /-- The seed of a run that is given none. -/
  freshSeed : Int

structure RouteRequest where
  transaction : Transaction
  user : User
  seed : Option Int

structure DifferenceRequest where
  previous : AuditRecord
  current : AuditRecord

open Schema

def RouteRequest.read : Read RouteRequest := record fun m =>
  RouteRequest.mk <$> required "context" Transaction.read m
    <*> required "user" User.read m
    <*> optional "seed" none (nullable (integerWithin 0 Generator.largestSeed)) m

def DifferenceRequest.read : Read DifferenceRequest := record fun m =>
  DifferenceRequest.mk <$> required "previous" AuditRecord.read m <*> required "current" AuditRecord.read m

namespace Service

def bodyOf (r : Request) : Except Reply (Option Value) :=
  match r.body with
  | none => .ok none
  | some text =>
    if text = "" then .ok none
    else if r.otherContent then .ok (some (.text text))
    else
      match Json.decoded? text with
      | none => .error Reply.unreadable
      | some text =>
        match Json.read text with
        | .ok v => .ok (some v)
        | .error (.malformed offset) => .error (Reply.malformed offset)
        | .error .oversizedInteger => .error Reply.unreadable

def taken {α : Type} (read : Read α) : Option Value → Except Reply α
  | none => .error (Reply.issues [⟨.missing, [.key "body"], .null⟩])
  | some v =>
    match (read v).within (.key "body") with
    | .ok a => .ok a
    | .bad found => .error (Reply.issues (found.map Issue.ofRequest))

def registryReply (e : RegistryError) : Reply :=
  match e with
  | .unknownVersion _ | .unknownPin _ | .unknownRule .. => Reply.message 404 e.message
  | .duplicateRule .. => Reply.detail 422 (.object [("message", .text e.message), ("errors", .list [])])
  | .invalidRule _ defects => Reply.detail 422 (.object
    [("message", .text e.message), ("errors", .ofList (fun d => .text d.message) defects)])
  | .malformedRule found => Reply.issues found
  | .unwritable _ => Reply.failure

def accessReply : AccessError → Reply
  | .denied status message => Reply.message status message
  | _ => Reply.failure

def authorizeUnder (settings : Settings) (r : Request) (s : Service) : Except AccessError Value × Service :=
  match s.verifier with
  | .trusted claims => (Access.requireRole settings.adminRole claims, s)
  | .tokens i =>
    let (claims, keys) := Guard.administrator i settings (Guard.bearer? (r.header? "authorization")) s.keys
    (claims, { s with keys := keys })

def authorize (r : Request) (s : Service) : Except AccessError Value × Service :=
  match s.settings with
  | .ok settings => s.authorizeUnder settings r
  | .bad issues => (.error (.unusable (.issues issues)), s)

def withRegistry (r : Registry) (s : Service) : Service := { s with world := s.world.withRegistry r }

/-- Answers an edit with the version as it is then; an edit stays where the version cannot be sent. -/
def edited (status : Nat) (s : Service) : Except RegistryError (PolicyVersion × Registry) → Reply × Service
  | .ok (p, r) => (Reply.record status p.writeError? p.toValue, s.withRegistry r)
  | .error e => (registryReply e, s)

def pinValue (r : Registry) : String × Value := ("pinned_version", .ofOption .text r.pinned)

def pinned (s : Service) : Except RegistryError Registry → Reply × Service
  | .ok r => (Reply.ok (.object [pinValue r]), s.withRegistry r)
  | .error e => (registryReply e, s)

/-- The name of the current version is told only where it is a text. -/
def active (s : Service) : Reply × Service :=
  match s.world.registry.active, s.world.registry.currentAs with
  | .ok p, .text name => (Reply.record 200 p.writeError? (.object
      [("policy", p.toValue), ("current_version", .text name), pinValue s.world.registry]), s)
  | .ok _, _ => (Reply.failure, s)
  | .error e, _ => (registryReply e, s)

def setCached (version : String) (cached : Bool) (s : Service) : Reply × Service :=
  match s.world.registry.setCached version cached with
  | .ok r => (Reply.ok (.object [("version", .text version), ("is_cached", .bool cached)]), s.withRegistry r)
  | .error e => (registryReply e, s)

def fetch (seed : Option Int) (s : Service) : Reply × Service :=
  match s.world.registry.active with
  | .error e => (registryReply e, s)
  | .ok p =>
    let seed := seed.getD s.freshSeed
    let (low, high) := Stage.policyLoad.latencyRange
    match s.world.fetch p.cached (.int low) (.int high) (Generator.ofSeed seed) with
    | (.ok latency, _, w) => (Reply.ok (.object
        [("version", .text p.version), ("is_cached", .bool p.cached), ("latency_ms", .int latency),
         ("seed", .int seed)]), { s with world := w })
    | (.error _, _, w) => (Reply.failure, { s with world := w })

def reset (s : Service) : Reply × Service :=
  match s.world.tryReset with
  | (.ok (), w) =>
    (Reply.ok (.object [("current_version", w.registry.currentAs), pinValue w.registry]), { s with world := w })
  | (.error _, w) => (Reply.failure, { s with world := w })

/-- An order for a version that is not there is answered by no status of its own. -/
def reorder (ids : List String) (s : Service) : Reply × Service :=
  match s.world.registry.reorderRules ids with
  | .ok (p, r) => (Reply.record 200 p.writeError? p.toValue, s.withRegistry r)
  | .error _ => (Reply.failure, s)

def validation (r : Rule) : Value := .object
  [("valid", .bool r.isValid),
   ("errors", .ofList (fun d => .text d.message) r.defects),
   ("dsl", if r.isValid then .text r.freshSnippet else .null)]

def engine (seed : Option Int) (s : Service) : Engine where
  paced := s.deployment.paced
  perturbation := .float s.deployment.perturbation
  limits := .ofLimits s.deployment.riskLimits
  seed := seed.getD s.freshSeed
  fixedTime := some s.time

def runReply : RunError → Reply
  | .busy => Reply.message 409 RunError.busy.message
  | .policy e => registryReply e
  | e => Reply.message 500 ("Routing engine error: " ++ e.message)

/-- Routes a purchase and publishes the record; whether the broker took it does not show. -/
def route (q : RouteRequest) (s : Service) : Reply × Service :=
  match (s.engine q.seed).route q.transaction q.user s.world with
  | (.error e, w) => (runReply e, { s with world := w })
  | (.ok r, w) =>
    let (_, publisher) := s.publisher.publish (GivenSettings.ofSettings s.deployment).channel s.broker r.audit
    (Reply.record 200 r.audit.writeError? (.object
      [("audit_record", r.audit.toValue), ("trace", r.trace.toValue),
       ("sensitivity", .ofList Nudge.toValue r.sensitivity)]),
      { s with world := w, publisher := publisher })

def difference (q : DifferenceRequest) : Reply :=
  Reply.ok (.ofOption Difference.toValue (Difference.between q.previous q.current))

def health (s : Service) : Reply :=
  match s.settings with
  | .ok settings => Reply.ok (.object
    [("status", .text "ok"), ("service", .text settings.serviceName),
     ("engine_version", .text settings.engineVersion)])
  | .bad _ => Reply.failure

def index (s : Service) : Value := .object
  [("service", .text s.deployment.serviceName),
   ("engine_version", .text s.deployment.engineVersion),
   ("policy_version", .text s.deployment.defaultPolicy),
   ("route", .text "POST /v1/stop/route")]

/-- Acts on what is taken from the body, or answers with what is wrong with it. -/
def withTaken {α : Type} (read : Read α) (body : Option Value) (s : Service) (f : α → Reply × Service) :
    Reply × Service :=
  match taken read body with
  | .ok a => f a
  | .error reply => (reply, s)

def ids : Read (List String) := record fun m => required "rule_ids" (listOf text) m

def pinRequest : Read (Option String) := record fun m => optional "version" none (nullable text) m

def cacheRequest : Read Bool := record fun m => required "is_cached" flag m

def fetchRequest : Read (Option Int) := record fun m => optional "seed" none (nullable integer) m

def act (e : Endpoint) (body : Option Value) (s : Service) : Reply × Service :=
  match e with
  | .index => (Reply.ok s.index, s)
  | .health => (s.health, s)
  | .route => s.withTaken RouteRequest.read body fun q => s.route q
  | .difference => s.withTaken DifferenceRequest.read body fun q => (difference q, s)
  | .versions => (Reply.record 200 (s.world.registry.versions.findSome? PolicyVersion.writeError?)
      (.ofList PolicyVersion.toValue s.world.registry.versions), s)
  | .active => s.active
  | .addRule => s.withTaken Rule.read body fun r => s.edited 201 (s.world.registry.addRule r)
  | .updateRule id =>
    s.withTaken (mapOf anything) body fun updates => s.edited 200 (s.world.registry.updateRule id updates)
  | .removeRule id => s.edited 200 (s.world.registry.removeRule id)
  | .reorderRules => s.withTaken ids body fun ids => s.reorder ids
  | .validateRule => s.withTaken Rule.read body fun r => (Reply.ok (validation r), s)
  | .pin => s.withTaken pinRequest body fun version => s.pinned (s.world.registry.pin version)
  | .unpin => s.pinned (s.world.registry.pin none)
  | .setCached version => s.withTaken cacheRequest body fun cached => s.setCached version cached
  | .fetch => s.withTaken fetchRequest body fun seed => s.fetch seed
  | .reset => s.reset

/-- Acts for an administrator, or denies. -/
def admitted (e : Endpoint) (r : Request) (body : Option Value) (s : Service) : Reply × Service :=
  if e.guarded then
    match s.authorize r with
    | (.ok _, s) => s.act e body
    | (.error error, s) => (accessReply error, s)
  else s.act e body

def answer (r : Request) (s : Service) : Reply × Service :=
  match Endpoint.ofRequest r with
  | .nothing => (Reply.message 404 "Not Found", s)
  | .wrongMethod => (Reply.message 405 "Method Not Allowed", s)
  | .elsewhere => (Reply.redirect, s)
  | .found e =>
    if e.takesBody then
      match bodyOf r with
      | .ok body => s.admitted e r body
      | .error reply => (reply, s)
    else s.admitted e r none

/-- Of the reply to a request for the head alone, nothing but the status is sent. -/
def handle (r : Request) (s : Service) : Reply × Service :=
  let (reply, s) := s.answer r
  (if r.method = "HEAD" then ⟨reply.status, .text ""⟩ else reply, s)

def handleAll : List Request → Service → List Reply × Service
  | [], s => ([], s)
  | r :: rest, s =>
    let (reply, s) := s.handle r
    let (replies, s) := handleAll rest s
    (reply :: replies, s)

end Service

end WalletRouting
