import WalletRouting.Proofs.Run.Timeline
import WalletRouting.Proofs.Run.World
import WalletRouting.Proofs.Score.Sensitivity
import WalletRouting.Run.Given

/-! # Runs that lose a stage

A stage that fails is recorded and the next one runs, so no stage keeps a run from returning. What is computed after the
stages does: the weights for the record are normalised once more, where nothing takes the failure.
-/
namespace WalletRouting
set_option autoImplicit false

/-- The clock counts whole milliseconds. -/
def Clock.Whole (c : Clock) : Prop := ∀ n, ∃ k : Int, c.reading n = .int k

theorem World.untouched_whole : World.Untouched fun w => w.clock.Whole :=
  ⟨fun _ h => h, fun _ _ h => h, fun _ _ h => h⟩

/-- Its seed is one that a record takes, and a number tells it how far to move weights. -/
structure Engine.Configured (e : Engine) : Prop where
  seeded : e.seedIssues = []
  perturbed : ∃ x, e.perturbation = .float x

namespace Engine

variable {e : Engine} {w : World}

/-- An engine of settings is configured, whatever whole number is its seed, and idle. -/
theorem configured_of_settings {s : Settings} {config seed : Value} {freshSeed : Int}
    (hseed : seed = .null ∨ ∃ n : Int, seed = .int n)
    (h : ofGiven (.ofSettings s) config seed freshSeed = .ok e) : e.busy = false ∧ e.Configured := by
  obtain ⟨limits, -, h⟩ := bind_eq_ok h
  rcases hseed with rfl | ⟨n, rfl⟩
  · cases h
    exact ⟨rfl, rfl, _, rfl⟩
  · cases h
    exact ⟨rfl, rfl, _, rfl⟩

theorem now_whole (h : w.clock.Whole) : (∃ k : Int, (e.now w).1 = .int k) ∧ (e.now w).2.clock.Whole := by
  refine ⟨?_, now_preserves World.untouched_whole h e⟩
  unfold now
  cases e.fixedTime with
  | some t => exact ⟨t, rfl⟩
  | none => exact h _

theorem runStages_silent (h : w.clock.Whole) (j : Job) (stages : List Stage) (r : Run) :
    ∃ r' w', e.runStages j Observer.silent stages r () w = (.ok r', (), w') ∧ w'.clock.Whole := by
  induction stages generalizing r w with
  | nil => exact ⟨r, w, rfl, h⟩
  | cons s rest ih => exact ih (runStage_preserves World.untouched_whole h e j s r) _

theorem begin_returns (h : w.clock.Whole) {p : PolicyVersion} (hactive : w.registry.active = .ok p) (t : Transaction)
    (u : User) : ∃ j r w', e.begin t u w = (.ok (j, r), w') ∧ w'.clock.Whole := by
  obtain ⟨⟨k, hk⟩, hwhole⟩ := now_whole (e := e) h
  unfold begin
  dsimp only
  rw [registry_now, hactive, hk]
  exact ⟨_, _, _, rfl, hwhole⟩

/-- Whole times and a mark that reads as one are all that the record asks for, beside weights. -/
theorem conclude_returns (h : w.clock.Whole) {j : Job} {r : Run} {weights : Weights} {hit : Bool}
    (he : e.Configured) (hhit : Schema.flag j.policy.cacheMark = .ok hit) (hweights : weightsUsed j r = .ok weights)
    (htable : ∀ table, r.table = some table → table.weights.Fractions) :
    ∃ result w', e.conclude j r w = (.ok result, w') := by
  obtain ⟨⟨k, hk⟩, hwhole⟩ := now_whole (e := e) h
  obtain ⟨⟨k', hk'⟩, -⟩ := now_whole (e := e) hwhole
  have hsensitivity : ∃ nudges, e.sensitivityOf r = .ok nudges := by
    unfold sensitivityOf
    cases hr : r.table with
    | none => exact ⟨[], rfl⟩
    | some table =>
      obtain ⟨x, hx⟩ := he.perturbed
      rw [hx]
      exact Sensitivity.ofGiven_ok (htable table hr) table.rows x
  obtain ⟨nudges, hnudges⟩ := hsensitivity
  have hrecord : require "AuditRecord" (e.recordIssues j (.int k)) = .ok () := by
    unfold recordIssues
    rw [he.seeded, hhit]
    rfl
  unfold conclude
  rw [hweights]
  dsimp only
  rw [hk, hrecord]
  dsimp only
  rw [hk']
  unfold resultOf
  rw [hnudges]
  exact ⟨_, _, rfl⟩

end Engine

theorem ScoreTable.normalize_of_ok {instruments : List Instrument} {t : Transaction} {u : User} {s : Guidance}
    {assessments : Keyed RiskAssessment} {forced : Option String} {table : ScoreTable}
    (h : ofInstruments instruments t u s assessments forced = .ok table) : u.weights.normalize = .ok table.weights := by
  obtain ⟨weights, hweights, rfl⟩ := ofInstruments_ok h
  exact hweights

/-- What a run shows of its stages: all of them in their order, each failure in its place, and all failures together. -/
structure RunResult.Graceful (result : RunResult) : Prop where
  stages : result.trace.results.map (·.stage) = Stage.all.map Stage.name
  indices : result.trace.results.map (·.index) = Stage.all.map fun s => (s.index : Int)
  settled : ∀ s ∈ result.trace.results, s.Settled
  errors : result.audit.errors = result.trace.results.flatMap (·.errors)

namespace Engine

variable {σ : Type} {e : Engine} {t : Transaction} {u : User} {w w' : World}

theorem run_graceful {observer : Observer σ} {kept kept' : σ} {result : RunResult}
    (h : e.run t u observer kept w = (.ok result, kept', w')) : result.Graceful := by
  obtain ⟨j, ended, audited, weights, -, htrace, haudit, htimeline, herrors⟩ := run_timeline h
  constructor
  · rw [htrace]
    exact htimeline.stage
  · rw [htrace]
    exact htimeline.index
  · rw [htrace]
    exact htimeline.forall_mem fun _ _ _ _ hrecorded => hrecorded.settled
  · rw [haudit, htrace]
    exact herrors

theorem finite_of_run {observer : Observer σ} {kept kept' : σ} {result : RunResult} {p : PolicyVersion}
    (hweights : ∀ c, 0 ≤ u.weights.get c) (hactive : w.registry.active = .ok p)
    (h : e.run t u observer kept w = (.ok result, kept', w')) :
    (∀ c, Double.finite (u.weights.get c) = true) ∧ ∃ hit, Schema.flag p.cacheMark = .ok hit := by
  obtain ⟨j, r, w₁, r', w₂, hbegin, hstages, hconclude⟩ := run_eq_ok h
  obtain ⟨hpolicy, -, rfl, -⟩ := begin_ok hbegin
  obtain rfl : j.policy = p := Except.ok.inj (hpolicy.symm.trans hactive)
  obtain ⟨weights, audited, -, -, hused, hrecord, -⟩ := conclude_ok hconclude
  obtain ⟨table, -, hscored⟩ := (findings_of_begin hbegin hstages).exists_table hused
  refine ⟨Weights.finite_of_normalize hweights (ScoreTable.normalize_of_ok hscored), ?_⟩
  unfold recordIssues at hrecord
  obtain ⟨hrest, -⟩ := List.append_eq_nil_iff.mp hrecord
  obtain ⟨-, hmark⟩ := List.append_eq_nil_iff.mp hrest
  exact Schema.accountable_flag _ (Schema.Checked.issues_of_within hmark)

theorem run_of_finite {p : PolicyVersion} {hit : Bool} (hidle : e.busy = false) (he : e.Configured)
    (hclock : w.clock.Whole) (hactive : w.registry.active = .ok p) (hweights : ∀ c, 0 ≤ u.weights.get c)
    (hfinite : ∀ c, Double.finite (u.weights.get c) = true) (hhit : Schema.flag p.cacheMark = .ok hit) :
    ∃ result w', e.run t u Observer.silent () w = (.ok result, (), w') := by
  have hbusy : ({ e with busy := true } : Engine).Configured := ⟨he.seeded, he.perturbed⟩
  obtain ⟨j, r, w₁, hbegin, hclock₁⟩ := begin_returns (e := { e with busy := true }) hclock hactive t u
  obtain ⟨r', w₂, hstages, hclock₂⟩ := runStages_silent (e := { e with busy := true }) hclock₁ j Stage.all r
  obtain ⟨hpolicy, -, rfl, -⟩ := begin_ok hbegin
  obtain rfl : j.policy = p := Except.ok.inj (hpolicy.symm.trans hactive)
  obtain ⟨weights, hnormal, hfractions⟩ := Weights.normalize_ok hweights hfinite
  -- A table shows the same weights as are normalised for the record where there is none.
  have hshown (table : ScoreTable) (htable : r'.table = some table) : table.weights = weights := by
    have hshown :=
      ScoreTable.normalize_of_ok ((findings_of_begin hbegin hstages).scored (by decide) htable)
    rw [hnormal] at hshown
    cases hshown
    rfl
  have hused : weightsUsed j r' = .ok weights := by
    unfold weightsUsed
    split
    · next table htable => rw [hshown table htable]
    · exact hnormal
  obtain ⟨result, w₃, hconclude⟩ :=
    conclude_returns hclock₂ hbusy hhit hused fun table htable => hshown table htable ▸ hfractions
  refine ⟨result, w₃, ?_⟩
  unfold run
  dsimp only
  rw [hidle, if_neg Bool.false_ne_true, hbegin]
  dsimp only
  rw [hstages]
  dsimp only
  rw [hconclude]

/-- A run that no one observes returns exactly if every weight is finite and the policy's mark reads as one, and all
that it shows of its stages is graceful. -/
theorem route_returns_iff {v : Value} {p : PolicyVersion} (hidle : e.busy = false) (he : e.Configured)
    (hclock : w.clock.Whole) (hactive : w.registry.active = .ok p) (hu : User.read v = .ok u) :
    ((∃ result, (e.route t u w).1 = .ok result) ↔
        (∀ c, Double.finite (u.weights.get c) = true) ∧ ∃ hit, Schema.flag p.cacheMark = .ok hit) ∧
      ∀ result, (e.route t u w).1 = .ok result → result.Graceful := by
  have hrun {result : RunResult} (h : (e.route t u w).1 = .ok result) :
      ∃ w', e.run t u Observer.silent () w = (.ok result, (), w') := ⟨_, Prod.ext h rfl⟩
  refine ⟨⟨?_, ?_⟩, ?_⟩
  · rintro ⟨result, h⟩
    obtain ⟨w', h⟩ := hrun h
    exact finite_of_run (User.weights_nonneg hu) hactive h
  · rintro ⟨hfinite, hit, hhit⟩
    obtain ⟨result, w', h⟩ := run_of_finite hidle he hclock hactive (User.weights_nonneg hu) hfinite hhit
    exact ⟨result, congrArg Prod.fst h⟩
  · intro result h
    obtain ⟨w', h⟩ := hrun h
    exact run_graceful h

theorem route_returns_iff_of_user :
    ∃ result, (Sample.engine.route Sample.purchase Sample.user (Sample.world [])).1 = .ok result ∧
      result.Graceful := by
  have hfinite (c : Criterion) : Double.finite (Sample.user.weights.get c) = true := by
    cases c <;> decide
  obtain ⟨hreturns, hgraceful⟩ := route_returns_iff (e := Sample.engine) (t := Sample.purchase) (u := Sample.user)
    (w := Sample.world []) (v := Sample.user.toValue) (p := Sample.policy []) rfl ⟨rfl, _, rfl⟩ (fun _ => ⟨_, rfl⟩) rfl
    rfl
  obtain ⟨result, h⟩ := hreturns.mpr ⟨hfinite, false, rfl⟩
  exact ⟨result, h, hgraceful result h⟩

end Engine

namespace Sample

/-- A user who cares for rewards without bound. -/
def boundless : Value := .object [("id", .text "user"), ("preference_weights", .object [("rewards", .text "inf")])]

end Sample

/-- An infinite weight cannot be normalised for the record, after every stage has run. -/
theorem Engine.route_fails_over_infinite_weight :
    Sample.engine.busy = false ∧ Sample.engine.Configured ∧ (Sample.world []).clock.Whole ∧
      (∃ p, (Sample.world []).registry.active = .ok p) ∧
        ∃ u error, User.read Sample.boundless = .ok u ∧
          (Sample.engine.route Sample.purchase u (Sample.world [])).1 = .error error ∧
            error.message = "1 validation error for ScoringWeights" := by
  refine ⟨rfl, ⟨rfl, _, rfl⟩, fun _ => ⟨_, rfl⟩, ⟨_, rfl⟩, ?_⟩
  have hfails : (User.read Sample.boundless).get?.map (fun u =>
      match (Sample.engine.route Sample.purchase u (Sample.world [])).1 with
      | .ok _ => ""
      | .error error => error.message) = some "1 validation error for ScoringWeights" := by
    decide +kernel
  cases hread : User.read Sample.boundless with
  | bad issues =>
    rw [hread] at hfails
    cases hfails
  | ok u =>
    rw [hread] at hfails
    have hmessage := Option.some.inj hfails
    dsimp only at hmessage
    split at hmessage
    · exact absurd hmessage (by decide)
    · next error herror => exact ⟨u, error, rfl, herror, hmessage⟩

end WalletRouting
