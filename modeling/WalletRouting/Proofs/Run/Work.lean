import WalletRouting.Proofs.Ruling.Outcomes
import WalletRouting.Run.Work

/-! # What each stage finds

Logs, draws and times aside, a stage finds at most one thing. `Run.found` is a run without these, and there is one
equation for each stage that says what it adds to it.
-/
namespace WalletRouting
set_option autoImplicit false

namespace Run

/-- The run without its draws, its offset and its records. -/
def found (r : Run) : Run :=
  { r with generator := Generator.ofSeed 0, offset := 0, logs := [], results := [], spans := [], errors := [] }

theorem found_log (j : Job) (w : Window) (s : Stage) (level : LogLevel) (message : String)
    (id : Option String) (r : Run) : (r.log j w s level message id).found = r.found := rfl

theorem found_foldl {α : Type} {note : Run → α → Run} (h : ∀ r a, (note r a).found = r.found) (l : List α) (r : Run) :
    (l.foldl note r).found = r.found :=
  List.foldlRecOn (motive := fun q => q.found = r.found) l note rfl fun q hq a _ => (h q a).trans hq

end Run

namespace Work

variable (j : Job) (w : Window) (r : Run)

theorem found_ingest : (ingest j w r).2.found = r.found := rfl

/-- The purchase as it is enriched. -/
def enriched (now : Number) : Transaction :=
  { j.transaction with correlationId := j.correlationId, timestamp := some now }

theorem found_extractContext (now : Number) :
    (extractContext j w now r).2.found = { r.found with context := enriched j now } := rfl

theorem found_fetchProfile : (fetchProfile j w r).2.found = r.found := rfl

theorem found_loadPolicy : (loadPolicy j w r).2.found = r.found := by
  unfold loadPolicy
  dsimp only
  cases Schema.flag j.policy.cacheMark <;> rfl

theorem found_compileRules : (compileRules j w r).2.found = r.found := rfl

theorem found_noteOverride (s : Ruling) : (noteOverride j w s r).found = r.found := by
  unfold noteOverride
  cases s.forcingRule with
  | none => rfl
  | some f => cases s.hardOverride <;> rfl

theorem found_noteOverridden (r : Run) (v : Overridden) : (noteOverridden j w r v).found = r.found := rfl

theorem found_evaluateRules :
    (evaluateRules j w r).2.found =
      { r.found with
        ruling := Ruling.evaluate j.policy.rules r.context j.instruments j.user j.start.whole } := by
  unfold evaluateRules
  dsimp only
  rw [Run.found_foldl (found_noteOverridden j w), found_noteOverride]
  rfl

theorem found_noteVeto (r : Run) (entry : String × RiskAssessment) : (noteVeto j w r entry).found = r.found := rfl

theorem found_filterCandidates :
    (filterCandidates j w r).2.found =
      { r.found with
        assessments := ((j.limits.assessAll r.context j.user j.instruments r.generator).1.toOption).getD
          r.assessments } := by
  unfold filterCandidates
  rcases j.limits.assessAll r.context j.user j.instruments r.generator with ⟨_ | assessments, g⟩
  · rfl
  · dsimp only [admitCandidates]
    rw [Run.found_foldl (found_noteVeto j w)]
    rfl

theorem found_score :
    (score j w r).2.found =
      { r.found with
        table := (ScoreTable.ofInstruments j.instruments r.context j.user r.ruling.guidance r.assessments
          r.ruling.forcedId).toOption.or r.table } := by
  unfold score
  cases ScoreTable.ofInstruments j.instruments r.context j.user r.ruling.guidance r.assessments r.ruling.forcedId with
  | error e => rfl
  | ok table =>
    dsimp only
    cases table.top <;> rfl

theorem found_noteShadow (shadow : Option (ScoreRow × Shadow)) :
    (noteShadow j w shadow r).found = { r.found with shadow := (shadow.map Prod.snd).or r.shadow } := by
  cases shadow <;> rfl

/-- Without a table there may still be an override to follow. -/
theorem found_selectRoute :
    (selectRoute j w r).2.found =
      match r.table with
      | none => if r.ruling.hardOverride ∧ given r.ruling.forcedId then (pick j r.ruling.forcedId r).found else r.found
      | some table =>
        let id := table.selected? r.ruling
        { (pick j id r).found with
          shadow := ((shadowOf r.ruling table id (instrument? j.instruments id)).map Prod.snd).or r.shadow } := by
  unfold selectRoute
  cases r.table with
  | none =>
    dsimp only
    split <;> rfl
  | some table =>
    dsimp only
    rw [Run.found_log, found_noteShadow]
    rfl

theorem found_resolveRouter (now : Number) :
    ∃ resolved, (resolveRouter j w now r).2.found = { r.found with resolved := resolved } ∧
      ∀ x, resolved = some x → r.resolved = some x ∨ ∃ router, r.selected = some (.router router) ∧
        (Resolution.resolve router r.context j.user r.ruling.guidance j.limits (.num now) r.generator).1 = .ok x := by
  cases hselected : r.selected with
  | none => exact ⟨r.resolved, by rw [resolveRouter, hselected]; rfl, fun _ => Or.inl⟩
  | some i =>
    cases i with
    | card c => exact ⟨r.resolved, by rw [resolveRouter, hselected]; rfl, fun _ => Or.inl⟩
    | router router =>
      rw [resolveRouter, hselected]
      dsimp only
      split
      · exact ⟨r.resolved, by rw [← hselected]; rfl, fun _ => Or.inl⟩
      · next resolved g hresolved =>
        refine ⟨some resolved, by rw [← hselected]; rfl, ?_⟩
        rintro x ⟨⟩
        exact Or.inr ⟨router, rfl, congrArg Prod.fst hresolved⟩

theorem found_injectCredential : (injectCredential j w r).2.found = { r.found with final := funding r } := rfl

theorem found_authorize :
    ∃ a, (authorize j w r).2.found = { r.found with authorization := some a } ∧
      a.declineProbability = declineProbability r := by
  unfold authorize
  dsimp only
  split
  · exact ⟨_, rfl, rfl⟩
  · exact ⟨_, rfl, rfl⟩

theorem found_emitAudit : (emitAudit j w r).2.found = r.found := rfl

end Work

/-! ## Compiling rules and evaluating them

One stage counts the rules that are compiled, the next evaluates the policy anew. Both go by the same rules in the same
order, so that the count is that of the rules told of afterwards without those that have expired.
-/

open RuleOutcome (Tells isExpiry)

/-- Whatever a run has come to, the two stages agree on how many rules there are. -/
theorem Work.compiled_add_expired (j : Job) (w w' : Window) (r r' : Run) :
    ∃ active matched failed forces forced,
      (Work.compileRules j w r).1.map (fun o => o.output) = .ok (.compiled j.policy.rules.length active) ∧
        (Work.evaluateRules j w' r').1.map (fun o => o.output) = .ok (.evaluated matched failed forces forced) ∧
          active + (Work.evaluateRules j w' r').2.ruling.failed.countP isExpiry = matched + failed := by
  have hruling : (Work.evaluateRules j w' r').2.ruling =
      Ruling.evaluate j.policy.rules r'.context j.instruments j.user j.start.whole :=
    congrArg (fun q : Run => q.ruling) (Work.found_evaluateRules j w' r')
  refine ⟨_, _, _, _, _, rfl, rfl, ?_⟩
  rw [hruling]
  exact Ruling.length_current_add_expired _ _ _ _ _

end WalletRouting
