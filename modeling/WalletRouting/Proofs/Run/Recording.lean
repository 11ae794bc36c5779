import WalletRouting.Proofs.Draws
import WalletRouting.Run.Engine

/-! # What a stage records

The work of a stage adds entries to its log, dates them within its window, and touches none of the records of other
stages. What is recorded once the work is done is therefore known without looking into it, whether it failed or not.
-/
namespace WalletRouting
set_option autoImplicit false

/-- An entry lies within the window, after its start, and is stamped with the time of its offset. -/
structure LogEntry.DatedWithin (j : Job) (w : Window) (l : LogEntry) : Prop where
  after : w.startOffset < l.offset
  before : l.offset ≤ w.endOffset
  timestamp : l.timestamp = j.time l.offset

namespace Run

/-- Nothing is added but entries that are dated within the window. -/
structure Notes (j : Job) (w : Window) (r r' : Run) : Prop where
  offset : r'.offset = r.offset
  results : r'.results = r.results
  spans : r'.spans = r.spans
  errors : r'.errors = r.errors
  logs : ∀ l ∈ r'.logs, l ∈ r.logs ∨ l.DatedWithin j w

namespace Notes

variable {j : Job} {w : Window} {r r' : Run}

theorem refl (j : Job) (w : Window) (r : Run) : Notes j w r r := ⟨rfl, rfl, rfl, rfl, fun _ => Or.inl⟩

theorem of_found (hoffset : r'.offset = r.offset) (hresults : r'.results = r.results) (hspans : r'.spans = r.spans)
    (herrors : r'.errors = r.errors) (hlogs : r'.logs = r.logs) : Notes j w r r' :=
  ⟨hoffset, hresults, hspans, herrors, fun _ hl => Or.inl (hlogs ▸ hl)⟩

theorem log (h : Notes j w r r') (hw : w.startOffset < w.endOffset) (s : Stage) (level : LogLevel) (message : String)
    (id : Option String) : Notes j w r (r'.log j w s level message id) where
  offset := h.offset
  results := h.results
  spans := h.spans
  errors := h.errors
  logs l hl := by
    rcases List.mem_append.mp hl with hl | hl
    · exact h.logs l hl
    · cases List.mem_singleton.mp hl
      exact Or.inr ⟨lt_min (Int.lt_add_of_pos_right _ (Int.natCast_pos.mpr (Nat.succ_pos _))) hw, min_le_right _ _, rfl⟩

end Notes

end Run

/-- What the work of a stage comes to: notes, and an outcome that is no failure if there is one. -/
structure Attempt.Sound (j : Job) (w : Window) (r : Run) (a : Attempt) : Prop where
  notes : Run.Notes j w r a.2
  status : ∀ o, a.1 = .ok o → o.status ≠ .error

namespace Work

variable {j : Job} {w : Window} (hw : w.startOffset < w.endOffset) (r : Run)

include hw

theorem ingest_sound : (ingest j w r).Sound j w r where
  notes := (Run.Notes.refl j w r).log hw _ _ _ _
  status := by rintro _ ⟨⟩ ⟨⟩

theorem extractContext_sound (now : Number) : (extractContext j w now r).Sound j w r where
  notes := by
    refine Run.Notes.log ?_ hw _ _ _ _
    exact .of_found rfl rfl rfl rfl rfl
  status := by rintro _ ⟨⟩ ⟨⟩

theorem fetchProfile_sound : (fetchProfile j w r).Sound j w r where
  notes := (Run.Notes.refl j w r).log hw _ _ _ _
  status := by rintro _ ⟨⟩ ⟨⟩

theorem loadPolicy_sound : (loadPolicy j w r).Sound j w r := by
  unfold loadPolicy
  dsimp only
  cases Schema.flag j.policy.cacheMark with
  | ok hit => exact ⟨(Run.Notes.refl j w r).log hw _ _ _ _, by rintro _ ⟨⟩ ⟨⟩⟩
  | bad issues => exact ⟨(Run.Notes.refl j w r).log hw _ _ _ _, by rintro _ ⟨⟩⟩

theorem compileRules_sound : (compileRules j w r).Sound j w r where
  notes := (Run.Notes.refl j w r).log hw _ _ _ _
  status := by rintro _ ⟨⟩ ⟨⟩

theorem noteOverride_notes {r r' : Run} (h : Run.Notes j w r r') (s : Ruling) :
    Run.Notes j w r (noteOverride j w s r') := by
  unfold noteOverride
  split
  · split
    · exact h.log hw _ _ _ _
    · exact h
  · exact h

theorem evaluateRules_sound : (evaluateRules j w r).Sound j w r where
  notes := by
    refine List.foldlRecOn _ _ (noteOverride_notes hw (Run.Notes.log ?_ hw _ _ _ _) _) ?_
    · exact .of_found rfl rfl rfl rfl rfl
    · intro q h v _
      exact h.log hw _ _ _ _
  status := by rintro _ ⟨⟩ ⟨⟩

theorem filterCandidates_sound : (filterCandidates j w r).Sound j w r := by
  unfold filterCandidates
  rcases j.limits.assessAll r.context j.user j.instruments r.generator with ⟨m | assessments, g⟩
  · exact ⟨.of_found rfl rfl rfl rfl rfl, by rintro _ ⟨⟩⟩
  · refine ⟨List.foldlRecOn _ _ (Run.Notes.log ?_ hw _ _ _ _) ?_, by rintro _ ⟨⟩ ⟨⟩⟩
    · exact .of_found rfl rfl rfl rfl rfl
    · intro q h entry _
      exact h.log hw _ _ _ _

theorem score_sound : (score j w r).Sound j w r := by
  unfold score
  cases ScoreTable.ofInstruments j.instruments r.context j.user r.ruling.guidance r.assessments r.ruling.forcedId with
  | error e => exact ⟨.refl j w r, by rintro _ ⟨⟩⟩
  | ok table =>
    refine ⟨?_, by rintro _ ⟨⟩ ⟨⟩⟩
    dsimp only
    cases table.top with
    | some top =>
      refine Run.Notes.log ?_ hw _ _ _ _
      exact .of_found rfl rfl rfl rfl rfl
    | none =>
      refine Run.Notes.log ?_ hw _ _ _ _
      exact .of_found rfl rfl rfl rfl rfl

theorem noteShadow_notes {r r' : Run} (h : Run.Notes j w r r') (shadow : Option (ScoreRow × Shadow)) :
    Run.Notes j w r (noteShadow j w shadow r') := by
  unfold noteShadow
  split
  · refine Run.Notes.log ?_ hw _ _ _ _
    exact ⟨h.offset, h.results, h.spans, h.errors, h.logs⟩
  · exact h

theorem selectRoute_sound : (selectRoute j w r).Sound j w r := by
  unfold selectRoute
  cases r.table with
  | none =>
    refine ⟨?_, by rintro _ ⟨⟩⟩
    dsimp only
    split
    · exact .of_found rfl rfl rfl rfl rfl
    · exact .refl j w r
  | some table =>
    refine ⟨?_, by rintro _ ⟨⟩ ⟨⟩⟩
    refine (noteShadow_notes hw ?_ _).log hw _ _ _ _
    exact .of_found rfl rfl rfl rfl rfl

theorem resolveRouter_sound (now : Number) : (resolveRouter j w now r).Sound j w r := by
  unfold resolveRouter
  split
  · split
    · exact ⟨.of_found rfl rfl rfl rfl rfl, by rintro _ ⟨⟩⟩
    · refine ⟨Run.Notes.log ?_ hw _ _ _ _, by rintro _ ⟨⟩ ⟨⟩⟩
      exact .of_found rfl rfl rfl rfl rfl
  · exact ⟨(Run.Notes.refl j w r).log hw _ _ _ _, by rintro _ ⟨⟩ ⟨⟩⟩

theorem injectCredential_sound : (injectCredential j w r).Sound j w r where
  notes := by
    refine Run.Notes.log ?_ hw _ _ _ _
    exact .of_found rfl rfl rfl rfl rfl
  status := by rintro _ ⟨⟩ ⟨⟩

theorem authorize_sound : (authorize j w r).Sound j w r := by
  unfold authorize
  refine ⟨?_, by rintro _ ⟨⟩ ⟨⟩⟩
  dsimp only
  split
  · refine Run.Notes.log ?_ hw _ _ _ _
    exact .of_found rfl rfl rfl rfl rfl
  · refine Run.Notes.log ?_ hw _ _ _ _
    exact .of_found rfl rfl rfl rfl rfl

theorem emitAudit_sound : (emitAudit j w r).Sound j w r where
  notes := (Run.Notes.refl j w r).log hw _ _ _ _
  status := by rintro _ ⟨⟩ ⟨⟩

end Work

theorem Stage.work_sound {j : Job} {w : Window} (hw : w.startOffset < w.endOffset) (s : Stage) (now : Number)
    (r : Run) : (s.work j w now r).Sound j w r := by
  cases s with
  | ingest => exact Work.ingest_sound hw r
  | context => exact Work.extractContext_sound hw r now
  | profile => exact Work.fetchProfile_sound hw r
  | policyLoad => exact Work.loadPolicy_sound hw r
  | compile => exact Work.compileRules_sound hw r
  | evaluation => exact Work.evaluateRules_sound hw r
  | filtering => exact Work.filterCandidates_sound hw r
  | scoring => exact Work.score_sound hw r
  | selection => exact Work.selectRoute_sound hw r
  | resolution => exact Work.resolveRouter_sound hw r now
  | injection => exact Work.injectCredential_sound hw r
  | authorization => exact Work.authorize_sound hw r
  | audit => exact Work.emitAudit_sound hw r

namespace Stage

theorem latencyRange_bounds (s : Stage) :
    s.latencyRange = ((s.latencyRange.1.toNat : Int), (s.latencyRange.2.toNat : Int)) ∧
      0 < s.latencyRange.1.toNat ∧ s.latencyRange.1.toNat < s.latencyRange.2.toNat ∧
        s.latencyRange.2.toNat < 2 ^ 53 := by
  cases s <;> decide

end Stage

theorem Work.latency_pos (s : Stage) (g : Generator) : 0 < (latency s g).1 := by
  obtain ⟨hrange, hlow, hlt, hhigh⟩ := s.latencyRange_bounds
  unfold latency
  rw [hrange]
  dsimp only
  cases hdrawn : (g.latency (.int s.latencyRange.1.toNat) (.int s.latencyRange.2.toNat)).1 with
  | error e => exact Int.natCast_pos.mpr hlow
  | ok n => exact lt_of_lt_of_le (Int.natCast_pos.mpr hlow) (Generator.le_latency hlt hhigh hdrawn)

theorem World.fetch_fst (cached : Bool) (low high : Number) (g : Generator) (w : World) :
    (w.fetch cached low high g).1 = (Registry.fetchLatency cached low high g).1 := by
  unfold World.fetch
  rcases Registry.fetchLatency cached low high g with ⟨_ | latency, g'⟩ <;> rfl

theorem World.fetch_snd_fst (cached : Bool) (low high : Number) (g : Generator) (w : World) :
    (w.fetch cached low high g).2.1 = (Registry.fetchLatency cached low high g).2 := by
  unfold fetch
  rcases Registry.fetchLatency cached low high g with ⟨_ | latency, g'⟩ <;> rfl

theorem Engine.duration_pos (j : Job) (s : Stage) (g : Generator) (w : World) : 0 < (duration j s g w).1 := by
  unfold duration
  split
  · obtain ⟨hrange, hlow, hlt, hhigh⟩ := s.latencyRange_bounds
    rw [hrange]
    dsimp only
    rw [World.fetch_fst]
    cases hdrawn : (Registry.fetchLatency j.policy.cached (.int s.latencyRange.1.toNat)
        (.int s.latencyRange.2.toNat) g).1 with
    | error e => exact Int.natCast_pos.mpr hlow
    | ok n => exact lt_of_lt_of_le (Int.natCast_pos.mpr hlow) (Registry.le_fetchLatency hlt hhigh hdrawn)
  · exact Work.latency_pos s g

/-- A stage that failed has nothing to show but its one fault; one that did not fail has none. -/
def StageResult.Settled (result : StageResult) : Prop :=
  (result.status = .error ∧ result.inputs = [] ∧ result.outputs = [] ∧
      ∃ message, result.errors = [⟨"STAGE_ERROR", message, some result.stage, none, none⟩]) ∨
    (result.status ≠ .error ∧ result.errors = [])

/-- What a stage that starts at the offset leaves in the trace. -/
structure Stage.Recorded (j : Job) (s : Stage) (offset : Int) (result : StageResult) (span : Span) : Prop where
  stage : result.stage = s.name
  index : result.index = s.index
  window : result.window = j.window offset result.window.duration
  logs : ∀ l ∈ result.logs, l.DatedWithin j result.window
  settled : result.Settled
  span : (span.operation, span.window, span.status, span.logs) =
    (result.stage, result.window, result.status, result.logs)

/-- The names under which every span keeps its tags. -/
def Span.tagNames : List String := ["correlation_id", "stage_index"]

namespace Engine

theorem record_settled {j : Job} {s : Stage} {w : Window} {r : Run} {attempt : Attempt} (h : attempt.Sound j w r) :
    (record j s w attempt).1.Settled := by
  rcases attempt with ⟨e | o, r'⟩
  · exact Or.inl ⟨rfl, rfl, rfl, e.message, rfl⟩
  · exact Or.inr ⟨h.status o rfl, rfl⟩

theorem record_recorded {j : Job} {s : Stage} {w : Window} {r : Run} {attempt : Attempt} (h : attempt.Sound j w r)
    (hlogs : r.logs = []) (hoffset : r.offset = w.endOffset) {offset : Int} (hw : w = j.window offset w.duration) :
    ∃ span, s.Recorded j offset (record j s w attempt).1 span ∧
      (record j s w attempt).2.offset = (record j s w attempt).1.window.endOffset ∧
        (record j s w attempt).2.results = r.results ++ [(record j s w attempt).1] ∧
          (record j s w attempt).2.spans = r.spans ++ [span] ∧
            (record j s w attempt).2.errors = r.errors ++ (record j s w attempt).1.errors ∧
              span.tags.keys = Span.tagNames := by
  have hdated : ∀ l ∈ attempt.2.logs, l.DatedWithin j w := by
    intro l hl
    refine (h.notes.logs l hl).resolve_left ?_
    rw [hlogs]
    exact List.not_mem_nil
  have hsettled := record_settled (s := s) h
  have hnotes := h.notes
  rcases attempt with ⟨e | o, r'⟩
  · exact ⟨_, ⟨rfl, rfl, hw, hdated, hsettled, rfl⟩, hnotes.offset.trans hoffset,
      congrArg (· ++ _) hnotes.results, congrArg (· ++ _) hnotes.spans, congrArg (· ++ _) hnotes.errors, rfl⟩
  · exact ⟨_, ⟨rfl, rfl, hw, hdated, hsettled, rfl⟩, hnotes.offset.trans hoffset,
      congrArg (· ++ _) hnotes.results, congrArg (· ++ _) hnotes.spans, congrArg (· ++ _) hnotes.errors, rfl⟩

/-- One stage: it starts where the one before it ended, and its result and its span are added to the records. -/
theorem runStage_recorded {e : Engine} {j : Job} {s : Stage} {r r' : Run} {w w' : World} {result : StageResult}
    (h : e.runStage j s r w = (result, r', w')) :
    ∃ span, s.Recorded j r.offset result span ∧ r'.offset = result.window.endOffset ∧
      r'.results = r.results ++ [result] ∧ r'.spans = r.spans ++ [span] ∧
        r'.errors = r.errors ++ result.errors ∧ span.tags.keys = Span.tagNames := by
  have hpos := duration_pos j s r.generator w
  unfold runStage at h
  dsimp only at h
  generalize duration j s r.generator w = drawn at h hpos
  obtain ⟨d, g, w₁⟩ := drawn
  have hwindow : (j.window r.offset d).startOffset < (j.window r.offset d).endOffset := Int.lt_add_of_pos_right _ hpos
  cases h
  exact record_recorded (s.work_sound hwindow _ _) rfl rfl rfl

end Engine

end WalletRouting
