import WalletRouting.Proofs.Outcome
import WalletRouting.Proofs.Run.Work
import WalletRouting.Proofs.Run.World

/-! # What a run has found

A finding is made by one stage and kept by the others, so what a run has found follows from how far it has come. This
holds whatever the observer does, since it acts on the world and not on the run.
-/
namespace WalletRouting
set_option autoImplicit false

namespace Stage

theorem index_inj {a b : Stage} (h : a.index = b.index) : a = b := by
  have hall (s : Stage) : all[s.index]? = some s := by cases s <;> rfl
  exact Option.some.inj ((hall a).symm.trans (h ▸ hall b))

theorem index_lt_of_ne {a s : Stage} (h : a.index < s.index + 1) (hne : s ≠ a) : a.index < s.index := by
  have hindex : s.index ≠ a.index := fun heq => hne (index_inj heq)
  omega

theorem ne_of_index_lt {a b s : Stage} (h : a.index < s.index) (hb : b.index ≤ a.index) : s ≠ b := by
  rintro rfl
  omega

end Stage

/-- What a stage leaves as it was. -/
structure Stage.Keeps (s : Stage) (r r' : Run) : Prop where
  context : s ≠ .context → r'.context = r.context
  ruling : s ≠ .evaluation → r'.ruling = r.ruling
  assessments : s ≠ .filtering → r'.assessments = r.assessments
  table : s ≠ .scoring → r'.table = r.table
  selectedId : s ≠ .selection → r'.selectedId = r.selectedId
  selected : s ≠ .selection → r'.selected = r.selected
  resolved : s ≠ .resolution → r'.resolved = r.resolved
  final : s ≠ .injection → r'.final = r.final
  authorization : s ≠ .authorization → r'.authorization = r.authorization

/-- It is enough to look at what is found. -/
theorem Stage.Keeps.congr {s : Stage} {r r' q q' : Run} (h : s.Keeps r r') (hr : q.found = r.found)
    (hr' : q'.found = r'.found) : s.Keeps q q' := by
  have h : s.Keeps r.found r'.found :=
    ⟨h.context, h.ruling, h.assessments, h.table, h.selectedId, h.selected, h.resolved, h.final, h.authorization⟩
  rw [← hr, ← hr'] at h
  exact ⟨h.context, h.ruling, h.assessments, h.table, h.selectedId, h.selected, h.resolved, h.final, h.authorization⟩

theorem Stage.keeps_of_found {s : Stage} {r r' q : Run} (h : r'.found = q) (hkeeps : s.Keeps r.found q) :
    s.Keeps r r' := by
  subst h
  exact hkeeps.congr rfl rfl

theorem Stage.keeps_refl (s : Stage) (r : Run) : s.Keeps r r := by
  constructor <;> intro _ <;> rfl

theorem Stage.work_keeps (s : Stage) (j : Job) (w : Window) (now : Number) (r : Run) :
    s.Keeps r (s.work j w now r).2 := by
  cases s with
  | ingest => exact keeps_of_found (Work.found_ingest j w r) (keeps_refl _ _)
  | profile => exact keeps_of_found (Work.found_fetchProfile j w r) (keeps_refl _ _)
  | policyLoad => exact keeps_of_found (Work.found_loadPolicy j w r) (keeps_refl _ _)
  | compile => exact keeps_of_found (Work.found_compileRules j w r) (keeps_refl _ _)
  | audit => exact keeps_of_found (Work.found_emitAudit j w r) (keeps_refl _ _)
  | context =>
    apply keeps_of_found (Work.found_extractContext j w r now)
    constructor <;> intro hs <;> first | rfl | exact absurd rfl hs
  | evaluation =>
    apply keeps_of_found (Work.found_evaluateRules j w r)
    constructor <;> intro hs <;> first | rfl | exact absurd rfl hs
  | filtering =>
    apply keeps_of_found (Work.found_filterCandidates j w r)
    constructor <;> intro hs <;> first | rfl | exact absurd rfl hs
  | scoring =>
    apply keeps_of_found (Work.found_score j w r)
    constructor <;> intro hs <;> first | rfl | exact absurd rfl hs
  | selection =>
    apply keeps_of_found (Work.found_selectRoute j w r)
    cases r.table with
    | none =>
      dsimp only
      split <;> constructor <;> intro hs <;> first | rfl | exact absurd rfl hs
    | some table => constructor <;> intro hs <;> first | rfl | exact absurd rfl hs
  | resolution =>
    obtain ⟨resolved, h, -⟩ := Work.found_resolveRouter j w r now
    apply keeps_of_found h
    constructor <;> intro hs <;> first | rfl | exact absurd rfl hs
  | injection =>
    apply keeps_of_found (Work.found_injectCredential j w r)
    constructor <;> intro hs <;> first | rfl | exact absurd rfl hs
  | authorization =>
    obtain ⟨a, h, -⟩ := Work.found_authorize j w r
    apply keeps_of_found h
    constructor <;> intro hs <;> first | rfl | exact absurd rfl hs

namespace Engine

variable {e : Engine} {j : Job} {r r' : Run} {w w' : World}

/-- A stage works on what was found before it, and its result is the record of that work. -/
theorem runStage_work {s : Stage} {result : StageResult} (h : e.runStage j s r w = (result, r', w')) :
    ∃ window now q, q.found = r.found ∧ r'.found = (s.work j window now q).2.found ∧
      result = (record j s window (s.work j window now q)).1 := by
  unfold runStage at h
  dsimp only at h
  cases h
  refine ⟨_, _, { r with generator := _, offset := _, logs := [] }, ?_, ?_, rfl⟩ <;> rfl

theorem runStage_keeps {s : Stage} {result : StageResult} (h : e.runStage j s r w = (result, r', w')) :
    s.Keeps r r' := by
  obtain ⟨window, now, q, hq, hfound, -⟩ := runStage_work h
  exact (s.work_keeps j window now q).congr hq.symm hfound

variable {σ : Type}

/-- What every stage carries one further holds when stages that follow on one another are behind the run. -/
theorem runStages_induction {P : Nat → Run → Prop} {observer : Observer σ} {kept kept' : σ}
    (hstage : ∀ {s : Stage} {r r' : Run} {w w' : World} {result : StageResult}, P s.index r →
      e.runStage j s r w = (result, r', w') → P (s.index + 1) r')
    (stages : List Stage) {n : Nat} (hstages : stages.map Stage.index = List.range' n stages.length) (h : P n r)
    (hrun : e.runStages j observer stages r kept w = (.ok r', kept', w')) : P (n + stages.length) r' :=
  runStages_induction_within (P := fun _ => True) ⟨fun _ h => h, fun _ _ h => h, fun _ _ h => h⟩
    (fun _ _ _ _ h => h) (fun hr _ => hstage hr rfl) stages hstages h trivial hrun

end Engine

/-- What a run has found when the first so many stages are behind it. -/
structure Findings (j : Job) (n : Nat) (r : Run) : Prop where
  context : Stage.context.index < n → ∃ now, r.context = Work.enriched j now
  ruling : Stage.evaluation.index < n →
    r.ruling = Ruling.evaluate j.policy.rules r.context j.instruments j.user j.start.whole
  unscored : n ≤ Stage.scoring.index → r.table = none
  table : Stage.scoring.index < n →
    r.table = (ScoreTable.ofInstruments j.instruments r.context j.user r.ruling.guidance r.assessments
      r.ruling.forcedId).toOption
  selected : Stage.selection.index < n → ∀ table, r.table = some table →
    r.selectedId = table.selected? r.ruling ∧ r.selected = Work.instrument? j.instruments r.selectedId

namespace Findings

variable {j : Job} {n : Nat} {r r' : Run}

theorem initial (j : Job) (t : Transaction) (g : Generator) : Findings j 0 (Run.initial t g) where
  context h := absurd h (Nat.not_lt_zero _)
  ruling h := absurd h (Nat.not_lt_zero _)
  unscored _ := rfl
  table h := absurd h (Nat.not_lt_zero _)
  selected h := absurd h (Nat.not_lt_zero _)

theorem of_found (h : Findings j n r) (hfound : r'.found = r.found) : Findings j n r' := by
  have h : Findings j n r.found := ⟨h.context, h.ruling, h.unscored, h.table, h.selected⟩
  rw [← hfound] at h
  exact ⟨h.context, h.ruling, h.unscored, h.table, h.selected⟩

theorem work {s : Stage} (w : Window) (now : Number) (h : Findings j s.index r) :
    Findings j (s.index + 1) (s.work j w now r).2 := by
  have hkeeps := s.work_keeps j w now r
  constructor
  · intro hn
    by_cases hs : s = .context
    · subst hs
      exact ⟨now, congrArg (fun q : Run => q.context) (Work.found_extractContext j w r now)⟩
    · rw [hkeeps.context hs]
      exact h.context (Stage.index_lt_of_ne hn hs)
  · intro hn
    by_cases hs : s = .evaluation
    · subst hs
      rw [hkeeps.context (by decide)]
      exact congrArg (fun q : Run => q.ruling) (Work.found_evaluateRules j w r)
    · have hlt := Stage.index_lt_of_ne hn hs
      rw [hkeeps.ruling hs, hkeeps.context (Stage.ne_of_index_lt hlt (by decide))]
      exact h.ruling hlt
  · intro hn
    have hs : s ≠ .scoring := by
      rintro rfl
      omega
    rw [hkeeps.table hs]
    exact h.unscored (by omega)
  · intro hn
    by_cases hs : s = .scoring
    · subst hs
      rw [hkeeps.context (by decide), hkeeps.ruling (by decide), hkeeps.assessments (by decide)]
      have htable := congrArg (fun q : Run => q.table) (Work.found_score j w r)
      rw [h.unscored (Nat.le_refl _), Option.or_none] at htable
      exact htable
    · have hlt := Stage.index_lt_of_ne hn hs
      rw [hkeeps.table hs, hkeeps.context (Stage.ne_of_index_lt hlt (by decide)),
        hkeeps.ruling (Stage.ne_of_index_lt hlt (by decide)),
        hkeeps.assessments (Stage.ne_of_index_lt hlt (by decide))]
      exact h.table hlt
  · intro hn table htable
    by_cases hs : s = .selection
    · subst hs
      rw [hkeeps.table (by decide)] at htable
      rw [hkeeps.ruling (by decide)]
      have hfound := Work.found_selectRoute j w r
      rw [htable] at hfound
      have hid : ((Stage.selection.work j w now r).2).selectedId = table.selected? r.ruling :=
        congrArg (fun q : Run => q.selectedId) hfound
      refine ⟨hid, ?_⟩
      rw [hid]
      exact congrArg (fun q : Run => q.selected) hfound
    · have hlt := Stage.index_lt_of_ne hn hs
      rw [hkeeps.table (Stage.ne_of_index_lt hlt (by decide))] at htable
      rw [hkeeps.selectedId hs, hkeeps.selected hs, hkeeps.ruling (Stage.ne_of_index_lt hlt (by decide))]
      exact h.selected hlt table htable

theorem runStage {s : Stage} {e : Engine} {w w' : World} {result : StageResult} (h : Findings j s.index r)
    (hrun : e.runStage j s r w = (result, r', w')) : Findings j (s.index + 1) r' := by
  obtain ⟨window, now, q, hq, hfound, -⟩ := Engine.runStage_work hrun
  exact of_found ((h.of_found hq).work window now) hfound

end Findings

namespace Engine

variable {σ : Type}

theorem begin_eq_ok {e : Engine} {t : Transaction} {u : User} {w w' : World} {j : Job} {r : Run}
    (h : e.begin t u w = (.ok (j, r), w')) :
    w.registry.active = .ok j.policy ∧
      j = ⟨e.seed, e.limits, t, u, j.policy, w.registry.isPinned, (e.now w).1,
        (Generator.ofSeed e.seed).correlationId.1⟩ ∧
      r = Run.initial t (Generator.ofSeed e.seed).correlationId.2 := by
  unfold begin at h
  dsimp only at h
  rw [registry_now] at h
  cases hactive : w.registry.active with
  | error error =>
    rw [hactive] at h
    cases h
  | ok policy =>
    rw [hactive] at h
    simp only [require, Prod.mk.injEq] at h
    obtain ⟨h, -⟩ := h
    split at h
    · cases h
      exact ⟨rfl, rfl, rfl⟩
    · cases h

theorem begin_ok {e : Engine} {t : Transaction} {u : User} {w w' : World} {j : Job} {r : Run}
    (h : e.begin t u w = (.ok (j, r), w')) :
    w.registry.active = .ok j.policy ∧ j.transaction = t ∧ j.user = u ∧ j.start = (e.now w).1 ∧
      j.pinned = w.registry.isPinned ∧ ∃ g, r = Run.initial t g := by
  obtain ⟨hactive, hjob, hrun⟩ := begin_eq_ok h
  rw [hjob]
  exact ⟨hactive, rfl, rfl, rfl, rfl, _, hrun⟩

theorem findings_of_begin {e : Engine} {t : Transaction} {u : User} {observer : Observer σ} {kept kept' : σ}
    {w w₁ w₂ w₃ : World} {j : Job} {r r' : Run} (hbegin : e.begin t u w = (.ok (j, r), w₁))
    (hstages : e.runStages j observer Stage.all r kept w₂ = (.ok r', kept', w₃)) :
    Findings j Stage.all.length r' := by
  obtain ⟨-, -, -, -, -, g, rfl⟩ := begin_ok hbegin
  exact runStages_induction Findings.runStage Stage.all rfl (Findings.initial j t g) hstages

theorem require_ok {record : String} {issues : List Schema.Issue} {x : Unit} (h : require record issues = .ok x) :
    issues = [] := by
  unfold require at h
  split at h
  · next hempty => exact List.isEmpty_iff.mp hempty
  · cases h

theorem conclude_ok {e : Engine} {j : Job} {r : Run} {w w' : World} {result : RunResult}
    (h : e.conclude j r w = (.ok result, w')) :
    ∃ weights audited ended nudges, weightsUsed j r = .ok weights ∧ e.recordIssues j audited = [] ∧
      result = ⟨traceOf j r ended, auditOf j r weights audited.whole, nudges, r⟩ := by
  unfold conclude at h
  cases hweights : weightsUsed j r with
  | bad issues =>
    rw [hweights] at h
    cases h
  | ok weights =>
    rw [hweights] at h
    dsimp only at h
    split at h
    · cases h
    · next hrecord =>
      simp only [Prod.mk.injEq] at h
      obtain ⟨h, -⟩ := h
      obtain ⟨_, -, h⟩ := bind_eq_ok h
      obtain ⟨nudges, -, h⟩ := bind_eq_ok h
      cases h
      exact ⟨weights, _, _, nudges, rfl, require_ok hrecord, rfl⟩

theorem run_eq_ok {e : Engine} {t : Transaction} {u : User} {observer : Observer σ} {kept kept' : σ} {w w' : World}
    {result : RunResult} (h : e.run t u observer kept w = (.ok result, kept', w')) :
    ∃ j r w₁ r' w₂, ({ e with busy := true } : Engine).begin t u w = (.ok (j, r), w₁) ∧
      ({ e with busy := true } : Engine).runStages j observer Stage.all r kept w₁ = (.ok r', kept', w₂) ∧
        ({ e with busy := true } : Engine).conclude j r' w₂ = (.ok result, w') := by
  unfold run at h
  split at h
  · cases h
  · dsimp only at h
    rcases hbegin : ({ e with busy := true } : Engine).begin t u w with ⟨_ | ⟨j, r⟩, w₁⟩
    · rw [hbegin] at h
      cases h
    · rw [hbegin] at h
      dsimp only at h
      rcases hstages : ({ e with busy := true } : Engine).runStages j observer Stage.all r kept w₁ with
        ⟨_ | r', kept₁, w₂⟩
      · rw [hstages] at h
        cases h
      · rw [hstages] at h
        simp only [Prod.mk.injEq] at h
        obtain ⟨h, rfl, h'⟩ := h
        exact ⟨j, r, w₁, r', w₂, rfl, hstages, Prod.ext h h'⟩

/-- What holds before the first stage, and every stage carries one further, holds of a run that returns. -/
theorem run_induction {P : Nat → Run → Prop} (hinitial : ∀ t g, P 0 (Run.initial t g))
    (hstage : ∀ {e : Engine} {j : Job} {s : Stage} {r r' : Run} {w w' : World} {result : StageResult}, P s.index r →
      e.runStage j s r w = (result, r', w') → P (s.index + 1) r')
    {e : Engine} {t : Transaction} {u : User} {observer : Observer σ} {kept kept' : σ} {w w' : World}
    {result : RunResult} (h : e.run t u observer kept w = (.ok result, kept', w')) :
    P Stage.all.length result.run := by
  obtain ⟨j, r, w₁, r', w₂, hbegin, hstages, hconclude⟩ := run_eq_ok h
  obtain ⟨-, -, -, -, -, g, rfl⟩ := begin_ok hbegin
  obtain ⟨weights, audited, ended, nudges, -, -, rfl⟩ := conclude_ok hconclude
  exact runStages_induction hstage Stage.all rfl (hinitial t g) hstages

/-- A run that returns has found everything under the policy that was active when it began. -/
theorem run_ok {e : Engine} {t : Transaction} {u : User} {observer : Observer σ} {kept kept' : σ} {w w' : World}
    {result : RunResult} (h : e.run t u observer kept w = (.ok result, kept', w')) :
    ∃ (j : Job) (weights : Weights) (audited : Int), w.registry.active = .ok j.policy ∧ j.transaction = t ∧ j.user = u ∧
      result.trace.startTime = j.start.whole ∧ result.trace.correlationId = j.correlationId ∧
        Findings j Stage.all.length result.run ∧ weightsUsed j result.run = .ok weights ∧
          result.audit = auditOf j result.run weights audited := by
  obtain ⟨j, r, w₁, r', w₂, hbegin, hstages, hconclude⟩ := run_eq_ok h
  obtain ⟨hactive, ht, hu, -⟩ := begin_ok hbegin
  have hfindings := findings_of_begin hbegin hstages
  obtain ⟨weights, audited, ended, nudges, hweights, -, rfl⟩ := conclude_ok hconclude
  exact ⟨j, weights, _, hactive, ht, hu, rfl, rfl, hfindings, hweights, rfl⟩

end Engine

theorem Findings.scored {j : Job} {n : Nat} {r : Run} {table : ScoreTable} (h : Findings j n r)
    (hn : Stage.scoring.index < n) (htable : r.table = some table) :
    ScoreTable.ofInstruments j.instruments r.context j.user r.ruling.guidance r.assessments r.ruling.forcedId =
      .ok table := by
  have hscored := h.table hn
  rw [htable] at hscored
  cases hof : ScoreTable.ofInstruments j.instruments r.context j.user r.ruling.guidance r.assessments
      r.ruling.forcedId with
  | ok scored =>
    rw [hof] at hscored
    cases hscored
    rfl
  | error error =>
    rw [hof] at hscored
    cases hscored

theorem Findings.exists_table {j : Job} {r : Run} {weights : Weights} (h : Findings j Stage.all.length r)
    (hweights : Engine.weightsUsed j r = .ok weights) :
    ∃ table, r.table = some table ∧
      ScoreTable.ofInstruments j.instruments r.context j.user r.ruling.guidance r.assessments r.ruling.forcedId =
        .ok table := by
  have htable := h.table (by decide)
  cases hscored : ScoreTable.ofInstruments j.instruments r.context j.user r.ruling.guidance r.assessments
      r.ruling.forcedId with
  | ok table =>
    rw [hscored] at htable
    exact ⟨table, htable, rfl⟩
  | error error =>
    rw [hscored] at htable
    have hnormal : j.user.weights.normalize = .ok weights := by
      rw [← hweights, Engine.weightsUsed, htable]
      rfl
    have hfault : j.instruments.findSome? (r.ruling.guidance.fault? r.assessments r.ruling.forcedId) = none :=
      List.findSome?_eq_none_iff.mpr fun _ _ => rfl
    rw [ScoreTable.ofInstruments, hnormal] at hscored
    dsimp only at hscored
    rw [hfault] at hscored
    cases hscored

end WalletRouting
