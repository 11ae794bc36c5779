import WalletRouting.Proofs.Ruling.Wording
import WalletRouting.Proofs.Run.Isolation

/-! # Runs and what rules are called

A run quotes the words of its policy: in what it tells of its rules, in the reason of a shadow, and in the entry that
announces an override. With these struck out, runs under policies that differ in their words are the same. In
particular an entry takes its draw whatever it says.
-/
namespace WalletRouting
set_option autoImplicit false

/-! ## Striking out words -/

namespace LogEntry

/-- What an entry that quotes a label starts with. -/
def announcement : String := "HARD OVERRIDE: "

def announces (message : String) : Bool := announcement.toList.isPrefixOf message.toList

def wordless (l : LogEntry) : LogEntry := { l with message := if announces l.message then "" else l.message }

theorem announces_append (label : String) : announces (announcement ++ label) = true := by
  rw [announces, List.isPrefixOf_iff_prefix, String.toList_append]
  exact List.prefix_append _ _

@[simp] theorem wordless_wordless (l : LogEntry) : l.wordless.wordless = l.wordless := by
  have hempty : announces "" = false := rfl
  cases h : announces l.message <;> simp [wordless, h, hempty]

end LogEntry

def StageResult.wordless (r : StageResult) : StageResult := { r with logs := r.logs.map LogEntry.wordless }

def Span.wordless (s : Span) : Span := { s with logs := s.logs.map LogEntry.wordless }

def Shadow.wordless (s : Shadow) : Shadow := { s with reason := "" }

def Selection.wordless : Selection → Selection
  | .forced id _ => .forced id ""
  | .auto reason => .auto reason

def Job.wordless (j : Job) : Job := { j with policy := j.policy.wordless }

def Run.wordless (r : Run) : Run :=
  { r with
    logs := r.logs.map LogEntry.wordless
    results := r.results.map StageResult.wordless
    spans := r.spans.map Span.wordless
    ruling := r.ruling.wordless
    shadow := r.shadow.map Shadow.wordless }

def Attempt.wordless (a : Attempt) : Attempt := (a.1, a.2.wordless)

def Trace.wordless (t : Trace) : Trace :=
  { t with spans := t.spans.map Span.wordless, results := t.results.map StageResult.wordless }

def AuditRecord.wordless (a : AuditRecord) : AuditRecord :=
  { a with
    selection := a.selection.wordless
    shadow := a.shadow.map Shadow.wordless
    matched := a.matched.map RuleOutcome.wordless
    failed := a.failed.map RuleOutcome.wordless
    overridden := a.overridden.map Overridden.wordless
    spans := a.spans.map Span.wordless }

def RunResult.wordless (r : RunResult) : RunResult :=
  { r with trace := r.trace.wordless, audit := r.audit.wordless, run := r.run.wordless }

@[simp] theorem StageResult.wordless_wordless (r : StageResult) : r.wordless.wordless = r.wordless := by
  simp [wordless, Function.comp_def]

@[simp] theorem Span.wordless_wordless (s : Span) : s.wordless.wordless = s.wordless := by
  simp [wordless, Function.comp_def]

@[simp] theorem Shadow.wordless_wordless (s : Shadow) : s.wordless.wordless = s.wordless := rfl

@[simp] theorem Run.wordless_wordless (r : Run) : r.wordless.wordless = r.wordless := by
  simp [wordless, Function.comp_def]

/-! ## One stage -/

namespace Run

variable (j : Job) (w : Window) (s : Stage) (level : LogLevel) (id : Option String)

theorem log_wordless (r : Run) (message : String) :
    (r.wordless.log j w s level message id).wordless = (r.log j w s level message id).wordless := by
  simp [log, wordless, Function.comp_def]

theorem log_alike {r r' : Run} (h : r'.wordless = r.wordless) (message : String) :
    (r'.log j w s level message id).wordless = (r.log j w s level message id).wordless := by
  rw [← log_wordless j w s level id r', h, log_wordless]

/-- It does not matter which override is announced. -/
theorem log_announcement (r : Run) (label label' : String) :
    (r.log j w s level (LogEntry.announcement ++ label) id).wordless =
      (r.log j w s level (LogEntry.announcement ++ label') id).wordless := by
  simp [log, wordless, LogEntry.wordless, LogEntry.announces_append]

theorem foldl_wordless {α : Type} {note : Run → α → Run}
    (h : ∀ r a, (note r.wordless a).wordless = (note r a).wordless) (l : List α) {r r' : Run}
    (hr : r'.wordless = r.wordless) : (l.foldl note r').wordless = (l.foldl note r).wordless := by
  refine List.foldl_rel (r := fun x y : Run => x.wordless = y.wordless) hr fun a _ x y hxy => ?_
  rw [← h x, ← h y, hxy]

end Run

namespace Work

variable (j : Job) (w : Window) (r : Run)

theorem ingest_wordless : (ingest j.wordless w r.wordless).wordless = (ingest j w r).wordless :=
  Prod.ext rfl (Run.log_wordless j w _ _ _ r _)

theorem extractContext_wordless (now : Number) :
    (extractContext j.wordless w now r.wordless).wordless = (extractContext j w now r).wordless :=
  Prod.ext rfl (Run.log_wordless j w _ _ _ { r with context := enriched j now } _)

theorem fetchProfile_wordless : (fetchProfile j.wordless w r.wordless).wordless = (fetchProfile j w r).wordless :=
  Prod.ext rfl (Run.log_wordless j w _ _ _ r _)

theorem loadPolicy_wordless : (loadPolicy j.wordless w r.wordless).wordless = (loadPolicy j w r).wordless := by
  have hmark : j.wordless.policy.cacheMark = j.policy.cacheMark := rfl
  unfold loadPolicy
  dsimp only
  rw [hmark]
  cases Schema.flag j.policy.cacheMark with
  | ok hit => exact Prod.ext rfl (Run.log_wordless j w _ _ _ r _)
  | bad issues => exact Prod.ext rfl (Run.log_wordless j w _ _ _ r _)

theorem compileRules_wordless : (compileRules j.wordless w r.wordless).wordless = (compileRules j w r).wordless := by
  have hrules : j.wordless.policy.rules = j.policy.rules.map Rule.wordless := rfl
  unfold compileRules
  rw [hrules, Rule.current_wordless, List.length_map, List.length_map]
  exact Prod.ext rfl (Run.log_wordless j w _ _ _ r _)

theorem noteOverride_wordless (s : Ruling) :
    (noteOverride j w s.wordless r.wordless).wordless = (noteOverride j w s r).wordless := by
  have hforcing : s.wordless.forcingRule = s.forcingRule.map ForcingRule.wordless := rfl
  have hover : s.wordless.hardOverride = s.hardOverride := rfl
  unfold noteOverride
  rw [hforcing, hover]
  cases s.forcingRule with
  | none => exact r.wordless_wordless
  | some f =>
    dsimp only [Option.map_some]
    split
    · exact (Run.log_announcement j w _ _ _ r.wordless "" f.label).trans (Run.log_wordless j w _ _ _ r _)
    · exact r.wordless_wordless

theorem evaluateRules_wordless :
    (evaluateRules j.wordless w r.wordless).wordless = (evaluateRules j w r).wordless := by
  have hruling := Ruling.evaluate_wordless r.context j.user j.instruments j.start.whole j.policy.rules
  change (Ruling.evaluate j.wordless.policy.rules r.wordless.context j.wordless.instruments j.wordless.user
    j.wordless.start.whole).wordless = _ at hruling
  unfold evaluateRules
  dsimp only
  generalize Ruling.evaluate j.policy.rules r.context j.instruments j.user j.start.whole = s at hruling ⊢
  generalize Ruling.evaluate j.wordless.policy.rules r.wordless.context j.wordless.instruments j.wordless.user
    j.wordless.start.whole = s' at hruling ⊢
  have hmatched : s'.matched.length = s.matched.length := by
    simpa [Ruling.wordless] using congrArg (fun s => s.matched.length) hruling
  have hfailed : s'.failed.length = s.failed.length := by
    simpa [Ruling.wordless] using congrArg (fun s => s.failed.length) hruling
  have hover : s'.hardOverride = s.hardOverride := (congrArg Ruling.hardOverride hruling :)
  have hforced : s'.forcedId = s.forcedId := (congrArg Ruling.forcedId hruling :)
  have hoverridden (r : Run) : s'.overridden.foldl (noteOverridden j w) r =
      s.overridden.foldl (noteOverridden j w) r := by
    have hsame : s'.overridden.map Overridden.wordless = s.overridden.map Overridden.wordless :=
      (congrArg Ruling.overridden hruling :)
    have hnote (v : List Overridden) : (v.map Overridden.wordless).foldl (noteOverridden j w) r =
        v.foldl (noteOverridden j w) r := List.foldl_map
    rw [← hnote, hsame, hnote]
  refine Prod.ext ?_ ?_
  · change Except.ok _ = Except.ok _
    rw [hmatched, hfailed, hover, hforced]
  · have hr : Run.wordless { r.wordless with ruling := s' } = Run.wordless { r with ruling := s } := by
      simp [Run.wordless, hruling, Function.comp_def]
    rw [hmatched]
    have hmatched := Run.log_alike j w .evaluation .info none hr ("Matched: " ++ toString s.matched.length)
    change (s'.overridden.foldl (noteOverridden j w) (noteOverride j w s' _)).wordless = _
    rw [hoverridden]
    refine Run.foldl_wordless (fun r v => Run.log_wordless j w _ _ _ r _) _ ?_
    rw [← noteOverride_wordless, hruling]
    exact (congrArg (fun q => (noteOverride j w s.wordless q).wordless) hmatched).trans (noteOverride_wordless j w _ s)

theorem filterCandidates_wordless :
    (filterCandidates j.wordless w r.wordless).wordless = (filterCandidates j w r).wordless := by
  have hassessed : j.wordless.limits.assessAll r.wordless.context j.wordless.user j.wordless.instruments
      r.wordless.generator = j.limits.assessAll r.context j.user j.instruments r.generator := rfl
  unfold filterCandidates
  rw [hassessed]
  rcases j.limits.assessAll r.context j.user j.instruments r.generator with ⟨m | assessments, g⟩
  · exact Prod.ext rfl (Run.wordless_wordless { r with generator := g })
  · refine Prod.ext rfl (Run.foldl_wordless (fun r entry => Run.log_wordless j w _ _ _ r _) _ ?_)
    exact Run.log_wordless j w _ _ _ { r with assessments := assessments, generator := g } _

theorem score_wordless : (score j.wordless w r.wordless).wordless = (score j w r).wordless := by
  have htable : ScoreTable.ofInstruments j.wordless.instruments r.wordless.context j.wordless.user
      r.wordless.ruling.guidance r.wordless.assessments r.wordless.ruling.forcedId =
        ScoreTable.ofInstruments j.instruments r.context j.user r.ruling.guidance r.assessments r.ruling.forcedId := rfl
  unfold score
  rw [htable]
  cases ScoreTable.ofInstruments j.instruments r.context j.user r.ruling.guidance r.assessments r.ruling.forcedId with
  | error e => exact Prod.ext rfl r.wordless_wordless
  | ok table =>
    refine Prod.ext rfl ?_
    dsimp only [Attempt.wordless]
    cases table.top with
    | some top => exact Run.log_wordless j w _ _ _ { r with table := some table } _
    | none => exact Run.log_wordless j w _ _ _ { r with table := some table } _

theorem shadowOf_wordless (s : Ruling) (table : ScoreTable) (id : Option String) (selected : Option Instrument) :
    (shadowOf s.wordless table id selected).map (Prod.map (fun row => row) Shadow.wordless) =
      (shadowOf s table id selected).map (Prod.map (fun row => row) Shadow.wordless) := by
  unfold shadowOf
  cases table.top with
  | none => rfl
  | some top =>
    dsimp only
    rw [apply_ite (Option.map _), apply_ite (Option.map _)]
    rfl

theorem noteShadow_wordless (shadow : Option (ScoreRow × Shadow)) :
    (noteShadow j w (shadow.map (Prod.map (fun row => row) Shadow.wordless)) r.wordless).wordless =
      (noteShadow j w shadow r).wordless := by
  cases shadow with
  | none => exact r.wordless_wordless
  | some found => exact Run.log_wordless j w _ _ _ { r with shadow := some found.2 } _

theorem noteShadow_alike {r r' : Run} {shadow shadow' : Option (ScoreRow × Shadow)} (h : r'.wordless = r.wordless)
    (hshadow : shadow'.map (Prod.map (fun row => row) Shadow.wordless) =
      shadow.map (Prod.map (fun row => row) Shadow.wordless)) :
    (noteShadow j w shadow' r').wordless = (noteShadow j w shadow r).wordless := by
  rw [← noteShadow_wordless, hshadow, h, noteShadow_wordless]

/-- What is told of a route once it is picked. -/
def tellRoute (r : Run) : Attempt :=
  let name :=
    match r.selected with
    | some i => i.name
    | none => "none"
  (.ok { output := .selected r.selectedId r.isRouter (r.shadow.map (·.wouldHave)) },
    r.log j w .selection .info ("Selected: " ++ name) r.selectedId)

theorem tellRoute_alike {r r' : Run} (h : r'.wordless = r.wordless) :
    (tellRoute j w r').wordless = (tellRoute j w r).wordless := by
  have hid : r'.selectedId = r.selectedId := (congrArg Run.selectedId h :)
  have hselected : r'.selected = r.selected := (congrArg Run.selected h :)
  have hrouter : r'.isRouter = r.isRouter := by rw [Run.isRouter, Run.isRouter, hselected]
  have hshadow : r'.shadow.map (·.wouldHave) = r.shadow.map (·.wouldHave) := by
    have hsame := congrArg (fun r => r.shadow.map (·.wouldHave)) h
    simpa [Run.wordless, Shadow.wordless, Function.comp_def] using hsame
  unfold tellRoute
  rw [hid, hselected, hshadow, hrouter]
  exact Prod.ext rfl (Run.log_alike j w _ _ _ h _)

theorem selectRoute_wordless : (selectRoute j.wordless w r.wordless).wordless = (selectRoute j w r).wordless := by
  unfold selectRoute
  rcases htable : r.table with _ | table
  · have htable' : r.wordless.table = none := htable
    have hover : r.wordless.ruling.hardOverride = r.ruling.hardOverride := rfl
    have hforced : r.wordless.ruling.forcedId = r.ruling.forcedId := rfl
    rw [htable', hover, hforced]
    dsimp only
    split
    · exact Prod.ext rfl (Run.wordless_wordless (pick j r.ruling.forcedId r))
    · exact Prod.ext rfl r.wordless_wordless
  · have htable' : r.wordless.table = some table := htable
    rw [htable']
    exact tellRoute_alike j w (noteShadow_alike j w (Run.wordless_wordless (pick j (table.selected? r.ruling) r))
      (shadowOf_wordless r.ruling table _ _))

theorem resolveRouter_wordless (now : Number) :
    (resolveRouter j.wordless w now r.wordless).wordless = (resolveRouter j w now r).wordless := by
  have hselected : r.wordless.selected = r.selected := rfl
  unfold resolveRouter
  rw [hselected]
  cases r.selected with
  | none => exact Prod.ext rfl (Run.log_wordless j w _ _ _ r _)
  | some i =>
    cases i with
    | card c => exact Prod.ext rfl (Run.log_wordless j w _ _ _ r _)
    | router router =>
      have hresolve : Resolution.resolve router r.wordless.context j.wordless.user r.wordless.ruling.guidance
          j.wordless.limits (.num now) r.wordless.generator =
            Resolution.resolve router r.context j.user r.ruling.guidance j.limits (.num now) r.generator := rfl
      dsimp only
      rw [hresolve]
      rcases Resolution.resolve router r.context j.user r.ruling.guidance j.limits (.num now) r.generator with
        ⟨e | resolved, g⟩
      · exact Prod.ext rfl (Run.wordless_wordless { r with generator := g, selected := some (.router router) })
      · exact Prod.ext rfl (Run.log_wordless j w _ _ _
          { r with generator := g, selected := some (.router router), resolved := some resolved } _)

theorem injectCredential_wordless :
    (injectCredential j.wordless w r.wordless).wordless = (injectCredential j w r).wordless :=
  Prod.ext rfl (Run.log_wordless j w _ _ _ { r with final := funding r } _)

theorem authorize_wordless : (authorize j.wordless w r.wordless).wordless = (authorize j w r).wordless := by
  have hprobability : declineProbability r.wordless = declineProbability r := rfl
  have hgenerator : r.wordless.generator = r.generator := rfl
  unfold authorize
  dsimp only
  rw [hprobability, hgenerator]
  refine Prod.ext rfl ?_
  dsimp only [Attempt.wordless]
  split
  · exact Run.log_wordless j w _ _ _ { r with generator := _, authorization := some _ } _
  · exact Run.log_wordless j w _ _ _ { r with generator := _, authorization := some _ } _

theorem emitAudit_wordless : (emitAudit j.wordless w r.wordless).wordless = (emitAudit j w r).wordless :=
  Prod.ext rfl (Run.log_wordless j w _ _ _ r _)

end Work

theorem Stage.work_wordless (s : Stage) (j : Job) (w : Window) (now : Number) (r : Run) :
    (s.work j.wordless w now r.wordless).wordless = (s.work j w now r).wordless := by
  cases s with
  | ingest => exact Work.ingest_wordless j w r
  | context => exact Work.extractContext_wordless j w r now
  | profile => exact Work.fetchProfile_wordless j w r
  | policyLoad => exact Work.loadPolicy_wordless j w r
  | compile => exact Work.compileRules_wordless j w r
  | evaluation => exact Work.evaluateRules_wordless j w r
  | filtering => exact Work.filterCandidates_wordless j w r
  | scoring => exact Work.score_wordless j w r
  | selection => exact Work.selectRoute_wordless j w r
  | resolution => exact Work.resolveRouter_wordless j w r now
  | injection => exact Work.injectCredential_wordless j w r
  | authorization => exact Work.authorize_wordless j w r
  | audit => exact Work.emitAudit_wordless j w r

/-! ## Runs -/

/-- The worlds are alike but for the words of the policies that are active in them. -/
structure World.Alike (w' w : World) : Prop where
  clock : w'.clock = w.clock
  naps : w'.naps = w.naps
  pinned : w'.registry.isPinned = w.registry.isPinned
  active : w'.registry.active.map PolicyVersion.wordless = w.registry.active.map PolicyVersion.wordless

theorem World.parallel_alike : Parallel World.Alike where
  now _ _ h := congrArg Clock.now h.clock
  ticked _ _ h := ⟨congrArg Clock.tick h.clock, h.naps, h.pinned, h.active⟩
  napped _ _ naps h := ⟨h.clock, congrArg (· ++ naps) h.naps, h.pinned, h.active⟩
  fetched _ _ _ h := ⟨h.clock, h.naps, h.pinned, h.active⟩

namespace Engine

variable {e : Engine} {j j' : Job} {r r' : Run} {w w' : World}

theorem stamps_alike (hr : r'.wordless = r.wordless) (s : Stage) : s.stamps r' = s.stamps r := by
  have hselected : r'.selected = r.selected := (congrArg Run.selected hr :)
  unfold Stage.stamps Run.isRouter
  rw [hselected]

theorem record_wordless (j : Job) (s : Stage) (window : Window) (a : Attempt) :
    (record j s window a.wordless).2.wordless = (record j s window a).2.wordless := by
  obtain ⟨_ | o, r⟩ := a <;>
    simp [record, Attempt.wordless, Run.wordless, StageResult.wordless, Span.wordless, Function.comp_def]

theorem record_alike {j : Job} {s : Stage} {window : Window} {a a' : Attempt} (h : a'.wordless = a.wordless) :
    (record j s window a').2.wordless = (record j s window a).2.wordless := by
  rw [← record_wordless, h, record_wordless]

theorem runStage_alike (hj : j'.wordless = j.wordless) (hr : r'.wordless = r.wordless) (h : w'.Alike w) (s : Stage) :
    (e.runStage j' s r' w').2.1.wordless = (e.runStage j s r w).2.1.wordless ∧
      (e.runStage j' s r' w').2.2.Alike (e.runStage j s r w).2.2 := by
  have hgenerator : r'.generator = r.generator := (congrArg Run.generator hr :)
  have hoffset : r'.offset = r.offset := (congrArg Run.offset hr :)
  have hcached : j'.policy.cached = j.policy.cached := (congrArg (fun j => j.policy.cached) hj :)
  have hwindow : j'.window = j.window := (congrArg Job.window hj :)
  have hrecord : record j' = record j := (congrArg record hj :)
  obtain ⟨hduration, hdrawn, hfetched⟩ := duration_parallel World.parallel_alike hcached h s r.generator
  have hpaced := pace_parallel World.parallel_alike hfetched e (duration j s r.generator w).1
  obtain ⟨hnow, hstamped⟩ := stamp_parallel World.parallel_alike (stamps_alike hr s) hpaced e
  unfold runStage
  dsimp only
  rw [hgenerator, hoffset, hduration, hdrawn, hwindow, hrecord, hnow]
  refine ⟨record_alike ?_, hstamped⟩
  rw [← Stage.work_wordless, ← Stage.work_wordless s j, hj]
  exact congrArg (fun q : Run => (s.work j.wordless _ _ { q with generator := _, offset := _, logs := [] }).wordless) hr

theorem runStages_alike (hj : j'.wordless = j.wordless) (stages : List Stage) (hr : r'.wordless = r.wordless)
    (h : w'.Alike w) :
    ∃ q' q v' v, e.runStages j' Observer.silent stages r' () w' = (.ok q', (), v') ∧
      e.runStages j Observer.silent stages r () w = (.ok q, (), v) ∧ q'.wordless = q.wordless ∧ v'.Alike v := by
  induction stages generalizing r r' w w' with
  | nil => exact ⟨r', r, w', w, rfl, rfl, hr, h⟩
  | cons s rest ih =>
    obtain ⟨hrun, hworld⟩ := runStage_alike (e := e) hj hr h s
    exact ih hrun hworld

theorem begin_alike (h : w'.Alike w) (t : Transaction) (u : User) :
    (e.begin t u w').1.map (Prod.map Job.wordless id) = (e.begin t u w).1.map (Prod.map Job.wordless id) ∧
      (e.begin t u w').2.Alike (e.begin t u w).2 := by
  obtain ⟨hstart, hread⟩ := now_parallel World.parallel_alike h e
  unfold begin
  dsimp only
  rw [hstart, hread.pinned]
  rcases map_eq_map hread.active with ⟨error, hactive', hactive⟩ | ⟨p', p, hactive', hactive, hwords⟩
  · rw [hactive', hactive]
    exact ⟨rfl, hread⟩
  · rw [hactive', hactive]
    refine ⟨?_, hread⟩
    dsimp only
    cases require "StageResult" (startIssues (e.now w).1 (Generator.ofSeed e.seed).correlationId.2) with
    | error error => rfl
    | ok _ =>
      simp only [Except.map, Prod.map, Job.wordless, hwords, id]

theorem selectionOf_wordless (s : Ruling) : selectionOf s.wordless = (selectionOf s).wordless := by
  have hforcing : s.wordless.forcingRule = s.forcingRule.map ForcingRule.wordless := rfl
  have hover : s.wordless.hardOverride = s.hardOverride := rfl
  unfold selectionOf
  rw [hforcing, hover]
  cases s.forcingRule with
  | none => rfl
  | some f => cases s.hardOverride <;> rfl

theorem auditOf_wordless (j : Job) (r : Run) (weights : Weights) (now : Int) :
    auditOf j.wordless r.wordless weights now = (auditOf j r weights now).wordless := by
  have htime : r.wordless.results.foldr (fun result total => result.window.duration + total) 0 =
      r.results.foldr (fun result total => result.window.duration + total) 0 := List.foldr_map
  have htimings : r.wordless.results.map (fun result : StageResult => (⟨result.stage, result.window.startOffset,
      result.window.endOffset, result.window.duration⟩ : StageTiming)) = r.results.map fun result =>
        ⟨result.stage, result.window.startOffset, result.window.endOffset, result.window.duration⟩ := List.map_map
  have hselection : selectionOf r.wordless.ruling = (selectionOf r.ruling).wordless := selectionOf_wordless r.ruling
  unfold auditOf
  dsimp only
  rw [htime, htimings, hselection]
  rfl

theorem traceOf_wordless (j : Job) (r : Run) (now : Int) :
    traceOf j.wordless r.wordless now = (traceOf j r now).wordless := rfl

theorem resultOf_wordless (j : Job) (r : Run) (weights : Weights) (audited ended : Number) :
    e.resultOf j.wordless r.wordless weights audited ended =
      (e.resultOf j r weights audited ended).map RunResult.wordless := by
  have hsensitivity : e.sensitivityOf r.wordless = e.sensitivityOf r := rfl
  unfold resultOf
  rw [hsensitivity, auditOf_wordless, traceOf_wordless]
  cases require "TraceData" (timeIssues "end_time" ended) with
  | error error => rfl
  | ok _ => cases e.sensitivityOf r <;> rfl

theorem conclude_alike (hj : j'.wordless = j.wordless) (hr : r'.wordless = r.wordless) (h : w'.Alike w) :
    (e.conclude j' r' w').1.map RunResult.wordless = (e.conclude j r w).1.map RunResult.wordless ∧
      (e.conclude j' r' w').2.Alike (e.conclude j r w).2 := by
  have hweights : weightsUsed j' r' = weightsUsed j r := (congrArg₂ weightsUsed hj hr :)
  have hissues : e.recordIssues j' = e.recordIssues j := (congrArg e.recordIssues hj :)
  obtain ⟨haudited, hread⟩ := now_parallel World.parallel_alike h e
  obtain ⟨hended, hread'⟩ := now_parallel World.parallel_alike hread e
  unfold conclude
  rw [hweights, hissues]
  cases weightsUsed j r with
  | bad issues => exact ⟨rfl, h⟩
  | ok weights =>
    dsimp only
    rw [haudited, hended]
    cases require "AuditRecord" (e.recordIssues j (e.now w).1) with
    | error error => exact ⟨rfl, hread⟩
    | ok _ =>
      refine ⟨?_, hread'⟩
      dsimp only
      rw [← resultOf_wordless, hj, hr, resultOf_wordless]

theorem route_fst (e : Engine) (t : Transaction) (u : User) (w : World) :
    (e.route t u w).1 = (e.run t u Observer.silent () w).1 := rfl

theorem route_alike (h : w'.Alike w) (t : Transaction) (u : User) :
    (e.route t u w').1.map RunResult.wordless = (e.route t u w).1.map RunResult.wordless ∧
      (e.route t u w').2.Alike (e.route t u w).2 := by
  unfold route run
  cases hidle : e.busy with
  | true => exact ⟨rfl, h⟩
  | false =>
    simp only [Bool.false_eq_true, if_false]
    obtain ⟨hbegun, hworld⟩ := begin_alike (e := { e with busy := true }) h t u
    generalize ({ e with busy := true } : Engine).begin t u w' = start' at hbegun hworld ⊢
    generalize ({ e with busy := true } : Engine).begin t u w = start at hbegun hworld ⊢
    obtain ⟨begun', w₁'⟩ := start'
    obtain ⟨begun, w₁⟩ := start
    rcases map_eq_map hbegun with ⟨error, rfl, rfl⟩ | ⟨⟨j', r'⟩, ⟨j, r⟩, rfl, rfl, hsame⟩
    · exact ⟨rfl, hworld⟩
    · obtain ⟨hj, rfl⟩ := Prod.mk.inj hsame
      dsimp only [id]
      obtain ⟨q', q, v', v, hstages', hstages, hq, hv⟩ :=
        runStages_alike (e := { e with busy := true }) hj Stage.all (r := r') rfl hworld
      rw [hstages', hstages]
      exact conclude_alike hj hq hv

end Engine

/-- What a run decides, draws and tells of its course. -/
structure RunResult.Agrees (a b : RunResult) : Prop where
  route : a.audit.route = b.audit.route
  rows : a.audit.rows = b.audit.rows
  assessments : a.run.assessments = b.run.assessments
  risk : (a.audit.risk, a.audit.decline) = (b.audit.risk, b.audit.decline)
  resolution : a.audit.resolution = b.audit.resolution
  timings : a.audit.timings = b.audit.timings
  spans : a.audit.spans.map (·.id) = b.audit.spans.map (·.id)
  authorization : a.audit.authorization = b.audit.authorization
  correlationId : a.audit.correlationId = b.audit.correlationId
  signature : a.audit.shortSignature = b.audit.shortSignature
  generator : a.run.generator = b.run.generator

theorem RunResult.agrees_of_wordless {a b : RunResult} (h : a.wordless = b.wordless) : a.Agrees b where
  route := (congrArg (fun r => r.audit.route) h :)
  rows := (congrArg (fun r => r.audit.rows) h :)
  assessments := (congrArg (fun r => r.run.assessments) h :)
  risk := (congrArg (fun r => (r.audit.risk, r.audit.decline)) h :)
  resolution := (congrArg (fun r => r.audit.resolution) h :)
  timings := (congrArg (fun r => r.audit.timings) h :)
  spans := by
    have hsame := congrArg (fun r => r.audit.spans.map (·.id)) h
    simpa [wordless, AuditRecord.wordless, Span.wordless, Function.comp_def] using hsame
  authorization := (congrArg (fun r => r.audit.authorization) h :)
  correlationId := (congrArg (fun r => r.audit.correlationId) h :)
  signature := (congrArg (fun r => r.audit.shortSignature) h :)
  generator := (congrArg (fun r => r.run.generator) h :)

namespace Engine

end Engine

namespace Sample

/-- The rule that forces a card, under another name and with a text of its own. -/
def renamed (id : String) : Rule := { forcing id with label := "Renamed", compiled := some "THIS ONE" }

end Sample

end WalletRouting
