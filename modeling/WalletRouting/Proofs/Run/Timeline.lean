import WalletRouting.Proofs.Run.Recording
import WalletRouting.Proofs.Run.Selection

/-! # The timeline of a run

Stages follow on one another without gap or overlap, so their durations add up to the time the run takes. This is so
whatever is drawn, whichever stages fail, and whatever the observer does in between.
-/
namespace WalletRouting
set_option autoImplicit false

namespace Stage.Recorded

variable {j : Job} {s : Stage} {offset : Int} {result : StageResult} {span : Span}

theorem startOffset (h : s.Recorded j offset result span) : result.window.startOffset = offset := by
  rw [h.window]
  rfl

theorem endOffset (h : s.Recorded j offset result span) :
    result.window.endOffset = result.window.startOffset + result.window.duration := by
  rw [h.startOffset, h.window]
  rfl

end Stage.Recorded

/-- What stages leave in the trace that follow on one another from one offset to another. -/
inductive Timeline (j : Job) : List Stage → Int → List StageResult → List Span → Int → Prop where
  | nil (offset : Int) : Timeline j [] offset [] [] offset
  | cons {s : Stage} {stages : List Stage} {offset last : Int} {result : StageResult} {results : List StageResult}
      {span : Span} {spans : List Span} (h : s.Recorded j offset result span)
      (hrest : Timeline j stages result.window.endOffset results spans last) :
      Timeline j (s :: stages) offset (result :: results) (span :: spans) last

namespace Timeline

variable {j : Job} {stages : List Stage} {offset last : Int} {results : List StageResult} {spans : List Span}

theorem stage (h : Timeline j stages offset results spans last) : results.map (·.stage) = stages.map Stage.name := by
  induction h with
  | nil => rfl
  | cons h _ ih => rw [List.map_cons, List.map_cons, h.stage, ih]

theorem index (h : Timeline j stages offset results spans last) :
    results.map (·.index) = stages.map fun s => (s.index : Int) := by
  induction h with
  | nil => rfl
  | cons h _ ih => rw [List.map_cons, List.map_cons, h.index, ih]

theorem head (h : Timeline j stages offset results spans last) (hne : stages ≠ []) :
    results.head?.map (·.window.startOffset) = some offset := by
  cases h with
  | nil => exact absurd rfl hne
  | cons h _ => exact congrArg some h.startOffset

theorem contiguous (h : Timeline j stages offset results spans last) :
    results.IsChain fun a b => b.window.startOffset = a.window.endOffset := by
  induction h with
  | nil => exact .nil
  | cons h hrest ih =>
    cases hrest with
    | nil => exact .singleton _
    | cons h' hrest' => exact .cons_cons h'.startOffset ih

theorem sum (h : Timeline j stages offset results spans last) :
    offset + (results.map (·.window.duration)).sum = last := by
  induction h with
  | nil offset => exact Int.add_zero offset
  | cons h _ ih =>
    rw [List.map_cons, List.sum_cons, ← ih, h.endOffset, h.startOffset, Int.add_assoc]

theorem getLast_getD (h : Timeline j stages offset results spans last) :
    (results.getLast?.map (·.window.endOffset)).getD offset = last := by
  induction h with
  | nil => rfl
  | cons h _ ih =>
    rw [List.getLast?_cons, Option.map_some, Option.getD_some, ← ih]
    exact (Option.getD_map (fun r : StageResult => r.window.endOffset) _ _).symm

theorem getLast (h : Timeline j stages offset results spans last) (hne : stages ≠ []) :
    results.getLast?.map (·.window.endOffset) = some last := by
  have hlast := h.getLast_getD
  cases h with
  | nil => exact absurd rfl hne
  | cons h _ =>
    rw [List.getLast?_cons] at hlast ⊢
    exact congrArg some hlast

theorem spans_eq (h : Timeline j stages offset results spans last) :
    spans.map (fun span => (span.operation, span.window, span.status, span.logs)) =
      results.map fun result => (result.stage, result.window, result.status, result.logs) := by
  induction h with
  | nil => rfl
  | cons h _ ih => rw [List.map_cons, List.map_cons, h.span, ih]

theorem logs_eq (h : Timeline j stages offset results spans last) : spans.map (·.logs) = results.map (·.logs) := by
  have hshared := congrArg (List.map fun shared => shared.2.2.2) h.spans_eq
  rwa [List.map_map, List.map_map] at hshared

theorem forall_mem {P : StageResult → Prop} (h : Timeline j stages offset results spans last)
    (hP : ∀ s offset result span, Stage.Recorded j s offset result span → P result) : ∀ result ∈ results, P result := by
  induction h with
  | nil => exact fun _ hmem => absurd hmem List.not_mem_nil
  | cons h _ ih => exact List.forall_mem_cons.mpr ⟨hP _ _ _ _ h, ih⟩

end Timeline

namespace Engine

variable {σ : Type} {e : Engine} {observer : Observer σ} {kept kept' : σ} {w w' : World}

theorem runStages_timeline {j : Job} {r r' : Run} (stages : List Stage)
    (h : e.runStages j observer stages r kept w = (.ok r', kept', w')) :
    ∃ results spans, Timeline j stages r.offset results spans r'.offset ∧ r'.results = r.results ++ results ∧
      r'.spans = r.spans ++ spans ∧ r'.errors = r.errors ++ results.flatMap (·.errors) := by
  induction stages generalizing r kept w with
  | nil =>
    cases h
    exact ⟨[], [], .nil _, (List.append_nil _).symm, (List.append_nil _).symm, (List.append_nil _).symm⟩
  | cons s rest ih =>
    unfold runStages at h
    rcases hstage : e.runStage j s r w with ⟨result, r₁, w₁⟩
    rw [hstage] at h
    dsimp only at h
    rcases hafter : observer.after e result kept w₁ with ⟨_ | error, kept₁, w₂⟩
    · rw [hafter] at h
      obtain ⟨span, hrecorded, hoffset, hresults, hspans, herrors, -⟩ := runStage_recorded hstage
      obtain ⟨results, spans, htimeline, hresults', hspans', herrors'⟩ := ih h
      rw [hoffset] at htimeline
      refine ⟨result :: results, span :: spans, .cons hrecorded htimeline, ?_, ?_, ?_⟩
      · rw [hresults', hresults, List.append_assoc]
        rfl
      · rw [hspans', hspans, List.append_assoc]
        rfl
      · rw [herrors', herrors, List.append_assoc]
        rfl
    · rw [hafter] at h
      cases h

/-- What a run that returns has in its trace and in its record, beside what it found. -/
theorem run_timeline {t : Transaction} {u : User} {result : RunResult}
    (h : e.run t u observer kept w = (.ok result, kept', w')) :
    ∃ (j : Job) (ended audited : Int) (weights : Weights), j.start = (e.now w).1 ∧
      result.trace = traceOf j result.run ended ∧ result.audit = auditOf j result.run weights audited ∧
        Timeline j Stage.all 0 result.run.results result.run.spans result.run.offset ∧
          result.run.errors = result.run.results.flatMap (·.errors) := by
  obtain ⟨j, r, w₁, r', w₂, hbegin, hstages, hconclude⟩ := run_eq_ok h
  obtain ⟨-, -, -, hstart, -, g, rfl⟩ := begin_ok hbegin
  obtain ⟨results, spans, htimeline, hresults, hspans, herrors⟩ := runStages_timeline Stage.all hstages
  obtain ⟨weights, audited, ended, nudges, -, -, rfl⟩ := conclude_ok hconclude
  have hresults : r'.results = results := hresults
  have hspans : r'.spans = spans := hspans
  have herrors : r'.errors = results.flatMap (·.errors) := herrors
  subst hresults hspans
  exact ⟨j, ended, audited.whole, weights, hstart, rfl, rfl, htimeline, herrors⟩

end Engine

/-- The windows of the stages cover the run without gap or overlap, every entry of a log lies in the window of its
stage, and trace and record agree. -/
structure RunResult.Coherent (start : Int) (result : RunResult) : Prop where
  stages : result.trace.results.map (·.stage) = Stage.all.map Stage.name
  startsAtZero : result.trace.results.head?.map (·.window.startOffset) = some 0
  contiguous : result.trace.results.IsChain fun a b => b.window.startOffset = a.window.endOffset
  lasts : ∀ s ∈ result.trace.results, s.window.endOffset = s.window.startOffset + s.window.duration
  ends : result.trace.results.getLast?.map (·.window.endOffset) = some result.trace.totalDuration
  total : (result.trace.results.map (·.window.duration)).sum = result.trace.totalDuration
  processingTime : result.audit.processingTime = result.trace.totalDuration
  startTime : result.trace.startTime = start
  logs : ∀ s ∈ result.trace.results, ∀ l ∈ s.logs,
    s.window.startOffset < l.offset ∧ l.offset ≤ s.window.endOffset ∧ l.timestamp = start + l.offset
  spans : result.trace.spans.map (fun span => (span.operation, span.window, span.status, span.logs)) =
    result.trace.results.map fun s => (s.stage, s.window, s.status, s.logs)
  auditSpans : result.audit.spans = result.trace.spans
  timings : result.audit.timings = result.trace.results.map fun s =>
    ⟨s.stage, s.window.startOffset, s.window.endOffset, s.window.duration⟩

/-- A run that returns is coherent, whatever its observer does, if the clock counts whole milliseconds. -/
theorem Engine.run_coherent {σ : Type} {e : Engine} {t : Transaction} {u : User} {observer : Observer σ} {kept kept' : σ}
    {w w' : World} {result : RunResult} {start : Int} (hstart : (e.now w).1 = .int start)
    (h : e.run t u observer kept w = (.ok result, kept', w')) : result.Coherent start := by
  obtain ⟨j, ended, audited, weights, hjob, htrace, haudit, htimeline, -⟩ := run_timeline h
  have htime (offset : Int) : j.time offset = start + offset := by
    unfold Job.time
    rw [hjob, hstart]
    rfl
  have hsum : (result.run.results.map (·.window.duration)).sum = result.run.offset := by
    rw [← htimeline.sum, Int.zero_add]
  have hne : Stage.all ≠ [] := List.cons_ne_nil _ _
  constructor
  · rw [htrace]
    exact htimeline.stage
  · rw [htrace]
    exact htimeline.head hne
  · rw [htrace]
    exact htimeline.contiguous
  · rw [htrace]
    exact htimeline.forall_mem fun _ _ _ _ => Stage.Recorded.endOffset
  · rw [htrace]
    exact htimeline.getLast hne
  · rw [htrace]
    exact hsum
  · rw [haudit, htrace]
    refine Eq.trans ?_ hsum
    rw [List.sum_eq_foldr, List.foldr_map]
    rfl
  · rw [htrace]
    exact congrArg Number.whole (hjob.trans hstart)
  · rw [htrace]
    refine htimeline.forall_mem fun _ _ _ _ hrecorded l hl => ?_
    have hdated := hrecorded.logs l hl
    exact ⟨hdated.after, hdated.before, hdated.timestamp.trans (htime l.offset)⟩
  · rw [htrace]
    exact htimeline.spans_eq
  · rw [haudit, htrace]
    rfl
  · rw [haudit, htrace]
    rfl

namespace Sample

/-- Its one routing credential has no children to resolve to. -/
def stranded : User :=
  { user with credentials := [], routingCredentials := [⟨(card "router").toTerms, [], .optimalScore⟩] }

end Sample

theorem Engine.run_coherent_of_stranded :
    ∃ result kept w, Sample.engine.run Sample.purchase Sample.stranded Observer.silent () (Sample.world []) =
        (.ok result, kept, w) ∧ result.audit.errors.length = 1 ∧ result.Coherent 1 := by
  have hok : (Sample.engine.run Sample.purchase Sample.stranded Observer.silent () (Sample.world [])).1.toOption.map
      (fun r => r.audit.errors.length) = some 1 := by
    decide +kernel
  obtain ⟨result, kept, w, hrun, herrors⟩ := exists_ok_of_map hok
  exact ⟨result, kept, w, hrun, herrors, run_coherent rfl hrun⟩

end WalletRouting
