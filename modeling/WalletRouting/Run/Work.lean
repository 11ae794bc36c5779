import WalletRouting.Ruling.Evaluation
import WalletRouting.Run.State

/-! # What each stage does

A stage turns the run into the next one and either has an outcome or fails. What it did before it failed
stays done. The time a stage stamps with is read for it beforehand.
-/
namespace WalletRouting
set_option autoImplicit false

inductive StageError where
  | malformed (record : String) (issues : List Schema.Issue)
  | unusableLimits (m : Misuse)
  | unscored (e : TableError)
  | noTable
  | unresolved (e : ResolutionError)
  deriving Repr

def StageError.message : StageError → String
  | .malformed record issues => Schema.summary record issues
  | .unusableLimits m => m.message
  | .unscored e => e.message
  | .noTable => "No score table"
  | .unresolved e => e.message

abbrev Attempt := Except StageError StageOutcome × Run

namespace Work

def ingest (j : Job) (w : Window) (r : Run) : Attempt :=
  let t := j.transaction
  (.ok { output := .ingested j.correlationId, inputs := [("raw_event", t.toValue)] },
    r.info j w .ingest ("Received: " ++ t.merchant ++ " $" ++ t.amount.fixed 2))

def extractContext (j : Job) (w : Window) (now : Number) (r : Run) : Attempt :=
  let t := { j.transaction with correlationId := j.correlationId, timestamp := some now }
  (.ok { output := .enriched t, inputs := [("merchant", .text t.merchant), ("mcc", .int t.mcc)] },
    { r with context := t }.info j w .context
      ("Extracted: $" ++ t.amount.fixed 2 ++ ", MCC=" ++ toString t.mcc ++ ", " ++ t.country))

def fetchProfile (j : Job) (w : Window) (r : Run) : Attempt :=
  let credentials := j.user.credentials.length
  let routers := j.user.routingCredentials.length
  (.ok { output := .fetched credentials routers, inputs := [("user_id", .text j.user.id)] },
    r.info j w .profile ("Loaded " ++ toString credentials ++ " credentials, " ++ toString routers ++ " DRTs"))

def loadPolicy (j : Job) (w : Window) (r : Run) : Attempt :=
  let p := j.policy
  let r := r.info j w .policyLoad
    ("v" ++ p.version ++ (if p.cached then " [CACHE HIT]" else " [FETCHED]") ++ (if j.pinned then " [PINNED]" else ""))
  match Schema.flag p.cacheMark with
  | .ok hit => (.ok { output := .loaded p.version hit j.pinned p.signature w.duration }, r)
  | .bad issues => (.error (.malformed "PolicyLoadOutput" issues), r)

def compileRules (j : Job) (w : Window) (r : Run) : Attempt :=
  let rules := j.policy.rules.length
  let active := (Rule.current j.start.whole j.policy.rules).length
  (.ok { output := .compiled rules active, inputs := [("rule_count", .nat rules)] },
    r.info j w .compile ("Compiled " ++ toString active ++ " rules"))

def noteOverride (j : Job) (w : Window) (s : Ruling) (r : Run) : Run :=
  match s.forcingRule with
  | some f =>
    if s.hardOverride then r.log j w .evaluation .warn ("HARD OVERRIDE: " ++ f.label) s.forcedId else r
  | none => r

def noteOverridden (j : Job) (w : Window) (r : Run) (v : Overridden) : Run :=
  r.log j w .evaluation .warn ("Exclusion overridden: " ++ v.reason) (some v.credentialId)

def evaluateRules (j : Job) (w : Window) (r : Run) : Attempt :=
  let s := Ruling.evaluate j.policy.rules r.context j.instruments j.user j.start.whole
  let r := { r with ruling := s }.info j w .evaluation ("Matched: " ++ toString s.matched.length)
  (.ok { output := .evaluated s.matched.length s.failed.length s.hardOverride s.forcedId },
    s.overridden.foldl (noteOverridden j w) (noteOverride j w s r))

def noteVeto (j : Job) (w : Window) (r : Run) (entry : String × RiskAssessment) : Run :=
  r.log j w .filtering .warn (entry.2.vetoReason.getD "") (some entry.1)

/-- Takes the assessments of the wallet, and says how many candidates are left. -/
def admitCandidates (j : Job) (w : Window) (r : Run) (assessments : Keyed RiskAssessment) (g : Generator) : Attempt :=
  let excluded := Int.ofNat r.ruling.exclusions.length
  let candidates := Int.ofNat j.instruments.length - excluded
  let vetoed := assessments.filter fun entry => entry.2.veto
  let r := { r with assessments := assessments, generator := g }.info j w .filtering
    (toString candidates ++ " candidates (" ++ toString excluded ++ " excluded)")
  (.ok { output := .filtered candidates excluded (vetoed.map Prod.fst) }, vetoed.foldl (noteVeto j w) r)

def filterCandidates (j : Job) (w : Window) (r : Run) : Attempt :=
  match j.limits.assessAll r.context j.user j.instruments r.generator with
  | (.error m, g) => (.error (.unusableLimits m), { r with generator := g })
  | (.ok assessments, g) => admitCandidates j w r assessments g

def score (j : Job) (w : Window) (r : Run) : Attempt :=
  match ScoreTable.ofInstruments j.instruments r.context j.user r.ruling.guidance r.assessments r.ruling.forcedId with
  | .error e => (.error (.unscored e), r)
  | .ok table =>
    let r := { r with table := some table }
    (.ok { output := .scored table.candidates table.top },
      match table.top with
      | some top =>
        r.info j w .scoring ("Top: " ++ top.credentialName ++ " (" ++ top.final.fixed 1 ++ "/100)")
      | none => r.log j w .scoring .warn "No scored candidates" none)

def instrument? (instruments : List Instrument) (id : Option String) : Option Instrument :=
  instruments.find? fun i => some i.id = id

/-- The row that an override kept from winning, beside the route that was forced. -/
def shadowOf (s : Ruling) (table : ScoreTable) (id : Option String) (selected : Option Instrument) :
    Option (ScoreRow × Shadow) :=
  match table.top with
  | some top =>
    if s.hardOverride ∧ some top.credentialId ≠ id then
      some (top,
        { wouldHave := top.credentialId
          wouldHaveName := top.credentialName
          wouldHaveScore := top.final
          actual := id.getD ""
          actualName :=
            match selected with
            | some i => i.name
            | none => ""
          actualScore :=
            match table.rows.find? fun row => some row.credentialId = id with
            | some row => row.final
            | none => 0
          reason := "Hard rule override by " ++
            match s.forcingRule with
            | some f => f.label
            | none => "" })
    else none
  | none => none

def noteShadow (j : Job) (w : Window) (shadow : Option (ScoreRow × Shadow)) (r : Run) : Run :=
  match shadow with
  | some (top, s) =>
    { r with shadow := some s }.log j w .selection .warn
      ("Shadow winner: " ++ top.credentialName ++ " (" ++ top.final.fixed 1 ++ ")") none
  | none => r

def pick (j : Job) (id : Option String) (r : Run) : Run :=
  { r with selectedId := id, selected := instrument? j.instruments id }

def selectRoute (j : Job) (w : Window) (r : Run) : Attempt :=
  match r.table with
  | none =>
    (.error .noTable, if r.ruling.hardOverride ∧ given r.ruling.forcedId then pick j r.ruling.forcedId r else r)
  | some table =>
    let r := pick j (table.selected? r.ruling) r
    let r := noteShadow j w (shadowOf r.ruling table r.selectedId r.selected) r
    let name :=
      match r.selected with
      | some i => i.name
      | none => "none"
    (.ok { output := .selected r.selectedId r.isRouter (r.shadow.map (·.wouldHave)) },
      r.log j w .selection .info ("Selected: " ++ name) r.selectedId)

def resolveRouter (j : Job) (w : Window) (now : Number) (r : Run) : Attempt :=
  match r.selected with
  | some (.router router) =>
    match Resolution.resolve router r.context j.user r.ruling.guidance j.limits (.num now) r.generator with
    | (.error e, g) => (.error (.unresolved e), { r with generator := g })
    | (.ok resolved, g) =>
      let child := resolved.resolution.child
      let r := { r with generator := g, resolved := some resolved }
      (.ok
        { output := .resolved child.id resolved.resolution.reason
          inputs := [("drt_id", .text router.id), ("strategy", .text router.strategy.name)] },
        r.log j w .resolution .info ("Resolved → " ++ child.name) (some child.id))
  | _ =>
    (.ok { output := .skipped, status := .skipped }, r.info j w .resolution "Skipped (not DRT)")

/-- The instrument that pays: the child that was resolved, else the selected instrument itself. -/
def funding (r : Run) : Option Instrument :=
  match r.resolved with
  | some resolved => if r.isRouter then some (.card resolved.resolution.child) else r.selected
  | none => r.selected

def injectCredential (j : Job) (w : Window) (r : Run) : Attempt :=
  let final := funding r
  let dpan := final.map (·.terms.dpan)
  (.ok { output := .injected (final.map (·.id)) dpan },
    { r with final := final }.info j w .injection ("Injecting: " ++ dpan.getD "None"))

/-- The probability used where nothing is assessed or the assessment is zero. -/
def defaultDecline : Double := 0.05

/-- The assessment of the instrument that pays. -/
def finalAssessment (r : Run) : Option RiskAssessment := r.final.bind fun i => r.known.get? i.id

def declineProbability (r : Run) : Double :=
  match finalAssessment r with
  | some a => if a.decline == 0.0 then defaultDecline else a.decline
  | none => defaultDecline

def authorizationCode (approved : Bool) (g : Generator) : Option String × Generator :=
  if approved then
    let (n, g) := g.position 900000
    (some ("AUTH" ++ toString (n + 100000)), g)
  else (none, g)

def latency (s : Stage) (g : Generator) : Int × Generator :=
  let (low, high) := s.latencyRange
  let (n, g) := g.latency (.int low) (.int high)
  (n.toOption.getD low, g)

def authorize (j : Job) (w : Window) (r : Run) : Attempt :=
  let probability := declineProbability r
  let (approved, g) := r.generator.approves (.float probability)
  let (code, g) := authorizationCode approved g
  let (time, g) := latency .authorization g
  let a : Authorization :=
    { approved := approved
      code := code
      declineReason := if approved then none else some "Issuer declined"
      responseCode := if approved then "00" else "05"
      processingTime := time
      declineProbability := probability }
  let r := { r with generator := g, authorization := some a }
  (.ok { output := .authorized a, inputs := [("decline_probability", .float probability)] },
    if approved then r.info j w .authorization ("Approved: " ++ code.getD "")
    else r.log j w .authorization .warn "Declined" none)

def emitAudit (j : Job) (w : Window) (r : Run) : Attempt :=
  (.ok { output := .emitted w.endOffset r.errors.length },
    r.info j w .audit ("Emitted: " ++ toString w.endOffset ++ "ms total"))

end Work

def Stage.work (s : Stage) (j : Job) (w : Window) (now : Number) (r : Run) : Attempt :=
  match s with
  | .ingest => Work.ingest j w r
  | .context => Work.extractContext j w now r
  | .profile => Work.fetchProfile j w r
  | .policyLoad => Work.loadPolicy j w r
  | .compile => Work.compileRules j w r
  | .evaluation => Work.evaluateRules j w r
  | .filtering => Work.filterCandidates j w r
  | .scoring => Work.score j w r
  | .selection => Work.selectRoute j w r
  | .resolution => Work.resolveRouter j w now r
  | .injection => Work.injectCredential j w r
  | .authorization => Work.authorize j w r
  | .audit => Work.emitAudit j w r

def Stage.stamps (s : Stage) (r : Run) : Bool :=
  match s with
  | .context => true
  | .resolution => r.isRouter
  | _ => false

end WalletRouting
