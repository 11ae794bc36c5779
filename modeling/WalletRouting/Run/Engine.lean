import WalletRouting.Registry.Basic
import WalletRouting.Run.Work
import WalletRouting.Score.Sensitivity

/-! # Running the stages

An engine routes one purchase at a time. It takes one snapshot of the active policy and then works through the
stages in order; a stage that fails leaves an error and the next one runs. Between stages an observer may act
on the world, and may even try to start the engine again, which is busy then.
-/
namespace WalletRouting
set_option autoImplicit false

/-- What a run shares with everything else: the registry, the clock, and the naps taken so far, in seconds. -/
structure World where
  registry : Registry
  clock : Clock
  naps : List Double

/-- The time comes from the clock of the world unless it is fixed. The seed is where draws start; what a record
has against the form in which it was given stands beside it. -/
structure Engine where
  /-- Whether stages nap. -/
  paced : Bool
  /-- How far sensitivity moves a weight. -/
  perturbation : Value
  limits : GivenLimits
  seed : Int
  seedIssues : List Schema.Issue := []
  fixedTime : Option Int := none
  busy : Bool := false

inductive RunError where
  | busy
  | policy (e : RegistryError)
  | malformed (record : String) (issues : List Schema.Issue)
  | perturbation (m : Misuse)
  deriving Repr

def RunError.message : RunError → String
  | .busy => "run_pipeline is already executing on this engine"
  | .policy e => e.message
  | .malformed record issues => Schema.summary record issues
  | .perturbation m => m.message

def RunError.ofSensitivity : SensitivityError → RunError
  | .unusableWeights issues => .malformed "ScoringWeights" issues
  | .perturbation m => .perturbation m

/-- Acts after every stage, on what it keeps and on the world; an error it answers with ends the run. -/
structure Observer (σ : Type) where
  after : Engine → StageResult → σ → World → Option RunError × σ × World

def Observer.silent : Observer Unit := ⟨fun _ _ kept world => (none, kept, world)⟩

/-- What a run answers with, and the run as it is in the end. -/
structure RunResult where
  trace : Trace
  audit : AuditRecord
  sensitivity : List Nudge
  run : Run

namespace World

def opened (o : Origin) (c : Clock) : World :=
  let (r, c) := Registry.load o c
  ⟨r, c, []⟩

def tick (w : World) : Number × World := (w.clock.now, { w with clock := w.clock.tick })

/-- A simulated fetch: the latency, and the registry noting the time. Nothing is noted where no latency can be
told. -/
def fetch (cached : Bool) (low high : Number) (g : Generator) (w : World) :
    Except NumberError Int × Generator × World :=
  match Registry.fetchLatency cached low high g with
  | (.error e, g) => (.error e, g, w)
  | (.ok latency, g) =>
    let (now, w) := w.tick
    (.ok latency, g, { w with registry := w.registry.fetchedAt now })

def reset (w : World) : World :=
  let (r, c) := w.registry.reset w.clock
  { w with registry := r, clock := c }

/-- Resets a registry, unless the time is none that its versions could be dated by; it is read all the same. -/
def tryReset (w : World) : Except (List Schema.Issue) Unit × World :=
  match Registry.issues w.registry.origin w.clock with
  | [] => (.ok (), w.reset)
  | issues => (.error issues, { w with clock := w.clock.tick })

end World

namespace Engine

def now (e : Engine) (w : World) : Number × World :=
  match e.fixedTime with
  | some t => (.int t, w)
  | none => w.tick

/-- The milliseconds a stage takes. Loading the policy takes as long as fetching it; the others draw their latency. -/
def duration (j : Job) (s : Stage) (g : Generator) (w : World) : Int × Generator × World :=
  if s = .policyLoad then
    let (low, high) := s.latencyRange
    let (latency, g, w) := w.fetch j.policy.cached (.int low) (.int high) g
    (latency.toOption.getD low, g, w)
  else
    let (latency, g) := Work.latency s g
    (latency, g, w)

/-- A paced stage naps for an eighth of its duration, a millisecond at least. -/
def pace (e : Engine) (duration : Int) (w : World) : World :=
  if e.paced then
    { w with naps := w.naps ++ [Double.atLeast 1.0 (Float.ofInt duration / 8.0) / 1000.0] }
  else w

def stamp (e : Engine) (s : Stage) (r : Run) (w : World) : Number × World :=
  if s.stamps r then e.now w else (.int 0, w)

/-- What a record has against a time: it has to be whole. -/
def timeIssues (name : String) (time : Number) : List Schema.Issue :=
  ((Schema.integer (.num time)).within (.key name)).issues

def faultOf (s : Stage) (e : StageError) : StageFault where
  code := "STAGE_ERROR"
  message := e.message
  stage := some s.name
  ruleId := none
  credentialId := none

def spanId (g : Generator) : String × Generator :=
  let (n, g) := g.position 90000
  ("span_" ++ toString (n + 10000), g)

/-- What a stage leaves in the trace once its work is done. -/
def record (j : Job) (s : Stage) (w : Window) (attempt : Attempt) : StageResult × Run :=
  let (outcome, r) := attempt
  let result : StageResult :=
    match outcome with
    | .ok o =>
      { stage := s.name, index := s.index, status := o.status, window := w, inputs := o.inputs,
        outputs := o.output.members, logs := r.logs, errors := [] }
    | .error e =>
      { stage := s.name, index := s.index, status := .error, window := w, inputs := [], outputs := [],
        logs := r.logs, errors := [faultOf s e] }
  let (id, g) := spanId r.generator
  let span : Span :=
    { id := id, parentId := none, operation := s.name, window := w, status := result.status,
      tags := [("correlation_id", j.correlationId), ("stage_index", toString s.index)], logs := r.logs }
  (result,
    { r with
      generator := g
      errors := r.errors ++ result.errors
      results := r.results ++ [result]
      spans := r.spans ++ [span] })

def runStage (e : Engine) (j : Job) (s : Stage) (r : Run) (w : World) : StageResult × Run × World :=
  let (duration, g, w) := duration j s r.generator w
  let window := j.window r.offset duration
  let w := e.pace duration w
  let (now, w) := e.stamp s r w
  let (result, r) := record j s window
    (s.work j window now { r with generator := g, offset := window.endOffset, logs := [] })
  (result, r, w)

variable {σ : Type}

def runStages (e : Engine) (j : Job) (observer : Observer σ) :
    List Stage → Run → σ → World → Except RunError Run × σ × World
  | [], r, kept, w => (.ok r, kept, w)
  | s :: rest, r, kept, w =>
    let (result, r, w) := e.runStage j s r w
    match observer.after e result kept w with
    | (some error, kept, w) => (.error error, kept, w)
    | (none, kept, w) => runStages e j observer rest r kept w

def selectionOf (s : Ruling) : Selection :=
  match s.forcingRule with
  | some f => if s.hardOverride then .forced f.id f.label else .auto Selection.scored
  | none => .auto Selection.scored

/-- Characters seven to fourteen of a signature, past the name of the digest. -/
def shortSignature (signature : String) : String := Text.part 7 8 signature

def auditOf (j : Job) (r : Run) (weights : Weights) (now : Int) : AuditRecord :=
  let child := if r.isRouter then r.resolved else none
  let rows :=
    match r.table with
    | some table => table.rows
    | none => []
  let assessment := Work.finalAssessment r
  { correlationId := j.correlationId
    seed := j.seed
    userId := j.user.id
    policyVersion := j.policy.version
    shortSignature := shortSignature j.policy.signature
    cacheHit := (Schema.flag j.policy.cacheMark).get?.getD j.policy.cached
    pinned := j.pinned
    route := if given r.selectedId then r.selectedId.getD "" else "none"
    routeName :=
      match r.selected with
      | some i => i.name
      | none => "none"
    dpan :=
      match r.final with
      | some i => i.terms.dpan
      | none => "N/A"
    selection := selectionOf r.ruling
    isRouter := r.isRouter
    routerId := if r.isRouter then r.selectedId else none
    childId := child.map (·.resolution.child.id)
    childName := child.map (·.resolution.child.name)
    resolution := child.map (·.resolution)
    hardOverride := r.ruling.hardOverride
    shadow := r.shadow
    matched := r.ruling.matched
    failed := r.ruling.failed
    weights := weights
    rows := rows
    candidates := rows.filter fun row => !row.excluded
    exclusions := r.ruling.exclusions
    overridden := r.ruling.overridden
    risk :=
      match assessment with
      | some a => a.risk
      | none => 0
    decline :=
      match assessment with
      | some a => a.decline
      | none => 0
    authorization := r.authorization
    processingTime := r.results.foldr (fun result total => result.window.duration + total) 0
    timings := r.results.map fun result =>
      ⟨result.stage, result.window.startOffset, result.window.endOffset, result.window.duration⟩
    spans := r.spans
    errors := r.errors
    timestamp := now }

def recordIssues (e : Engine) (j : Job) (audited : Number) : List Schema.Issue :=
  e.seedIssues ++ ((Schema.flag j.policy.cacheMark).within (.key "policy_cache_hit")).issues ++
    timeIssues "timestamp" audited

/-- The weights that were used, or that would have been. -/
def weightsUsed (j : Job) (r : Run) : Schema.Checked Weights :=
  match r.table with
  | some table => .ok table.weights
  | none => j.user.weights.normalize

def traceOf (j : Job) (r : Run) (now : Int) : Trace where
  id := j.correlationId
  correlationId := j.correlationId
  seed := j.seed
  startTime := j.start.whole
  endTime := now
  totalDuration := r.offset
  spans := r.spans
  results := r.results

def sensitivityOf (e : Engine) (r : Run) : Except SensitivityError (List Nudge) :=
  match r.table with
  | some table => Sensitivity.ofGiven table.rows table.weights e.perturbation
  | none => .ok []

def require (record : String) (issues : List Schema.Issue) : Except RunError Unit :=
  if issues.isEmpty then .ok () else .error (.malformed record issues)

/-- What a finished run answers with, from the times at which it was audited and ended. -/
def resultOf (e : Engine) (j : Job) (r : Run) (weights : Weights) (audited ended : Number) :
    Except RunError RunResult := do
  require "TraceData" (timeIssues "end_time" ended)
  let sensitivity ← (e.sensitivityOf r).mapError RunError.ofSensitivity
  return { trace := traceOf j r ended.whole
           audit := auditOf j r weights audited.whole
           sensitivity := sensitivity
           run := r }

/-- Ends a run. The time for the record is read also where the record then cannot be made; the end is not. -/
def conclude (e : Engine) (j : Job) (r : Run) (w : World) : Except RunError RunResult × World :=
  match weightsUsed j r with
  | .bad issues => (.error (.malformed "ScoringWeights" issues), w)
  | .ok weights =>
    let (audited, w) := e.now w
    match require "AuditRecord" (e.recordIssues j audited) with
    | .error error => (.error error, w)
    | .ok () =>
      let (ended, w) := e.now w
      (e.resultOf j r weights audited ended, w)

/-- What the result of the first stage has against the time at which it starts or ends. -/
def startIssues (start : Number) (g : Generator) : List Schema.Issue :=
  timeIssues "start_time" start ++
    timeIssues "end_time" (start.add (.int (Work.latency .ingest g).1))

/-- The job and the run as they are before the first stage. The time is read before the policy is looked up. -/
def begin (e : Engine) (t : Transaction) (u : User) (w : World) : Except RunError (Job × Run) × World :=
  let (start, w) := e.now w
  let (correlationId, g) := (Generator.ofSeed e.seed).correlationId
  match w.registry.active with
  | .error error => (.error (.policy error), w)
  | .ok policy =>
    ((require "StageResult" (startIssues start g)).map fun _ =>
      ({ seed := e.seed, limits := e.limits, transaction := t, user := u, policy := policy,
         pinned := w.registry.isPinned, start := start, correlationId := correlationId },
        Run.initial t g), w)

/-- Routes a purchase. An engine that is busy refuses. -/
def run (e : Engine) (t : Transaction) (u : User) (observer : Observer σ) (kept : σ) (w : World) :
    Except RunError RunResult × σ × World :=
  if e.busy then (.error .busy, kept, w)
  else
    let e := { e with busy := true }
    match e.begin t u w with
    | (.error error, w) => (.error error, kept, w)
    | (.ok (j, r), w) =>
      match e.runStages j observer Stage.all r kept w with
      | (.error error, kept, w) => (.error error, kept, w)
      | (.ok r, kept, w) =>
        let (result, w) := e.conclude j r w
        (result, kept, w)

def route (e : Engine) (t : Transaction) (u : User) (w : World) : Except RunError RunResult × World :=
  let (result, _, w) := e.run t u Observer.silent () w
  (result, w)

end Engine

end WalletRouting
