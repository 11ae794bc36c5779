import WalletRouting.Proofs.Draws.Cycle
import WalletRouting.Proofs.Resolution.Spending
import WalletRouting.Proofs.Run.Degradation
import WalletRouting.Proofs.Run.Isolation
import WalletRouting.Proofs.Run.Payment

/-! # What a run draws

Every entry of a log takes one draw, every stage takes one for its duration and one for its span. The rest is for what is
decided by chance: two for each assessment, one for a turn, two or three for an authorization. So the draws of a run
that returned can be counted from what it shows.
-/
namespace WalletRouting
set_option autoImplicit false

namespace Run

/-- From the one run to the other so many words are drawn beside one for each new entry. -/
structure Spends (n : Nat) (r r' : Run) : Prop where
  seed : r'.generator.seed = r.generator.seed
  drawn : r'.generator.drawn + r.logs.length = r.generator.drawn + n + r'.logs.length

namespace Spends

variable {n : Nat} {r r' : Run}

theorem of_drawn (hlogs : r'.logs = r.logs) (hdrawn : r'.generator = ⟨r.generator.seed, r.generator.drawn + n⟩) :
    Spends n r r' := by
  constructor
  · rw [hdrawn]
  · rw [hdrawn, hlogs]

theorem refl (r : Run) : Spends 0 r r := of_drawn rfl rfl

theorem log (h : Spends n r r') (j : Job) (w : Window) (s : Stage) (level : LogLevel) (message : String)
    (id : Option String) : Spends n r (r'.log j w s level message id) where
  seed := h.seed
  drawn := by
    have hdrawn := h.drawn
    simp only [Run.log, Generator.position, Generator.unit, Generator.next_drawn, List.length_append,
      List.length_singleton]
    omega

end Spends

/-- What it took to choose a child, where one was chosen. -/
def choiceCost (r : Run) : Nat :=
  match r.selected, r.resolved with
  | some (.router router), some _ => Resolution.cost router
  | _, _ => 0

theorem choiceCost_of_unresolved {r : Run} (h : r.resolved = none) : r.choiceCost = 0 := by
  unfold choiceCost
  rw [h]
  split
  · next hsome => cases hsome
  · rfl

/-- What it took to authorize: the code of an approval is drawn too. -/
def decisionCost (r : Run) : Nat :=
  match r.authorization with
  | some a => if a.approved then 3 else 2
  | none => 0

end Run

namespace Work

variable {j : Job} {weights : Weights} (w : Window) (r : Run)

theorem loadPolicy_spends : r.Spends 0 (loadPolicy j w r).2 := by
  unfold loadPolicy
  dsimp only
  cases Schema.flag j.policy.cacheMark <;> exact (Run.Spends.refl r).log _ _ _ _ _ _

theorem noteOverride_spends {n : Nat} {r' : Run} (h : r.Spends n r') (s : Ruling) :
    r.Spends n (noteOverride j w s r') := by
  unfold noteOverride
  split
  · split
    · exact h.log _ _ _ _ _ _
    · exact h
  · exact h

theorem evaluateRules_spends : r.Spends 0 (evaluateRules j w r).2 := by
  refine List.foldlRecOn _ _ (noteOverride_spends w r (Run.Spends.log ?_ _ _ _ _ _ _) _) ?_
  · exact .of_drawn rfl rfl
  · intro q h v _
    exact h.log _ _ _ _ _ _

theorem filterCandidates_spends (hlimits : j.limits.Usable) :
    r.Spends (2 * j.instruments.length) (filterCandidates j w r).2 := by
  obtain ⟨assessments, hassessed⟩ := GivenLimits.assessAll_of_usable hlimits r.context j.user j.instruments r.generator
  unfold filterCandidates
  rw [hassessed]
  refine List.foldlRecOn _ _ (Run.Spends.log ?_ _ _ _ _ _ _) ?_
  · exact .of_drawn rfl rfl
  · intro q h entry _
    exact h.log _ _ _ _ _ _

theorem score_spends : r.Spends 0 (score j w r).2 := by
  unfold score
  split
  · exact .refl r
  · dsimp only
    split
    · refine Run.Spends.log ?_ _ _ _ _ _ _
      exact .of_drawn rfl rfl
    · refine Run.Spends.log ?_ _ _ _ _ _ _
      exact .of_drawn rfl rfl

theorem selectRoute_spends : r.Spends 0 (selectRoute j w r).2 := by
  unfold selectRoute
  split
  · dsimp only
    split
    · exact .of_drawn rfl rfl
    · exact .refl r
  · refine Run.Spends.log ?_ _ _ _ _ _ _
    unfold noteShadow
    split
    · refine Run.Spends.log ?_ _ _ _ _ _ _
      exact .of_drawn rfl rfl
    · exact .of_drawn rfl rfl

/-- Nothing has been chosen before, so there is a cost exactly if a child is chosen now. -/
theorem resolveRouter_spends (hlimits : j.limits.Usable) (hweights : j.user.weights.normalize = .ok weights)
    (hnone : r.resolved = none) (now : Int) :
    r.Spends (resolveRouter j w (.int now) r).2.choiceCost (resolveRouter j w (.int now) r).2 := by
  unfold resolveRouter
  split
  · next router hselected =>
    rcases Resolution.resolve_spends hlimits hweights router r.context r.ruling now r.generator with
      ⟨e, hresolve⟩ | ⟨resolved, hresolve⟩
    · rw [hresolve]
      dsimp only
      rw [Run.choiceCost_of_unresolved hnone]
      exact .refl r
    · rw [hresolve]
      dsimp only
      refine Run.Spends.log ?_ _ _ _ _ _ _
      refine .of_drawn rfl ?_
      unfold Run.choiceCost Run.log
      dsimp only
      rw [hselected]
  · have hskipped := Run.choiceCost_of_unresolved (r := r.info j w .resolution "Skipped (not DRT)") hnone
    dsimp only
    rw [hskipped]
    exact (Run.Spends.refl r).log _ _ _ _ _ _

theorem authorize_spends : r.Spends (authorize j w r).2.decisionCost (authorize j w r).2 := by
  unfold authorize
  dsimp only
  cases happroved : (r.generator.approves (.float (declineProbability r))).1 with
  | true =>
    refine Run.Spends.log ?_ _ _ _ _ _ _
    exact .of_drawn rfl rfl
  | false =>
    refine Run.Spends.log ?_ _ _ _ _ _ _
    exact .of_drawn rfl rfl

end Work

/-- What a stage draws for its work, told from the run as it leaves it. -/
def Stage.cost (s : Stage) (j : Job) (r : Run) : Nat :=
  match s with
  | .filtering => 2 * j.instruments.length
  | .resolution => r.choiceCost
  | .authorization => r.decisionCost
  | _ => 0

theorem Stage.work_spends {j : Job} {weights : Weights} (hlimits : j.limits.Usable)
    (hweights : j.user.weights.normalize = .ok weights) (s : Stage) (w : Window) (now : Int) (r : Run)
    (hnone : s = .resolution → r.resolved = none) :
    r.Spends (s.cost j (s.work j w (.int now) r).2) (s.work j w (.int now) r).2 := by
  cases s with
  | ingest => exact (Run.Spends.refl r).log _ _ _ _ _ _
  | context =>
    refine Run.Spends.log ?_ _ _ _ _ _ _
    exact .of_drawn rfl rfl
  | profile => exact (Run.Spends.refl r).log _ _ _ _ _ _
  | policyLoad => exact Work.loadPolicy_spends w r
  | compile => exact (Run.Spends.refl r).log _ _ _ _ _ _
  | evaluation => exact Work.evaluateRules_spends w r
  | filtering => exact Work.filterCandidates_spends w r hlimits
  | scoring => exact Work.score_spends w r
  | selection => exact Work.selectRoute_spends w r
  | resolution => exact Work.resolveRouter_spends w r hlimits hweights (hnone rfl) now
  | injection =>
    refine Run.Spends.log ?_ _ _ _ _ _ _
    exact .of_drawn rfl rfl
  | authorization => exact Work.authorize_spends w r
  | audit => exact (Run.Spends.refl r).log _ _ _ _ _ _

/-! ## Runs -/

namespace Run

/-- The entries in the logs of the stages that are done. -/
def entries (r : Run) : Nat := (r.results.map fun result => result.logs.length).sum

def charges (j : Job) (n : Nat) (r : Run) : Nat :=
  (if Stage.filtering.index < n then 2 * j.instruments.length else 0) + r.choiceCost + r.decisionCost

/-- What a run has drawn when the first so many stages are behind it. -/
structure Metered (j : Job) (n : Nat) (r : Run) : Prop where
  seed : r.generator.seed = j.seed
  drawn : r.generator.drawn = 32 + 2 * n + r.entries + r.charges j n
  unresolved : n ≤ Stage.resolution.index → r.resolved = none
  unauthorized : n ≤ Stage.authorization.index → r.authorization = none

end Run

theorem Stage.Keeps.charges {s : Stage} {j : Job} {r r' : Run} (h : s.Keeps r r') (hr : r.Metered j s.index) :
    r'.charges j (s.index + 1) = r.charges j s.index + s.cost j r' := by
  have hchoice (hs : s ≠ .resolution) : r'.choiceCost = r.choiceCost := by
    by_cases hselection : s = .selection
    · subst hselection
      have hnone := hr.unresolved (by decide)
      rw [Run.choiceCost_of_unresolved hnone, Run.choiceCost_of_unresolved ((h.resolved hs).trans hnone)]
    · rw [Run.choiceCost, Run.choiceCost, h.selected hselection, h.resolved hs]
  have hdecision (hs : s ≠ .authorization) : r'.decisionCost = r.decisionCost := by
    rw [Run.decisionCost, Run.decisionCost, h.authorization hs]
  unfold Run.charges
  cases s with
  | filtering =>
    rw [hchoice (by decide), hdecision (by decide)]
    simp [Stage.index, Stage.cost]
    omega
  | resolution =>
    rw [hdecision (by decide), Run.choiceCost_of_unresolved (hr.unresolved (Nat.le_refl _))]
    simp [Stage.index, Stage.cost]
    omega
  | authorization =>
    have hfree : r.decisionCost = 0 := by rw [Run.decisionCost, hr.unauthorized (Nat.le_refl _)]
    rw [hchoice (by decide), hfree]
    rfl
  | _ =>
    rw [hchoice (by decide), hdecision (by decide)]
    rfl

namespace Engine

theorem duration_snd (j : Job) (s : Stage) (g : Generator) (w : World) : (duration j s g w).2.1 = g.advance := by
  unfold duration
  split
  · next hs =>
    subst hs
    dsimp only
    rw [World.fetch_snd_fst]
    cases j.policy.cached <;> rfl
  · rfl

theorem stamp_whole {w : World} (h : w.clock.Whole) (e : Engine) (s : Stage) (r : Run) :
    ∃ k : Int, (e.stamp s r w).1 = .int k := by
  unfold stamp
  split
  · exact (now_whole h).1
  · exact ⟨0, rfl⟩

theorem entries_record (j : Job) (s : Stage) (w : Window) (a : Attempt) :
    (record j s w a).2.entries = a.2.entries + a.2.logs.length := by
  obtain ⟨_ | o, r⟩ := a <;> simp [record, Run.entries]

theorem cost_record (j : Job) (s : Stage) (w : Window) (a : Attempt) : s.cost j (record j s w a).2 = s.cost j a.2 := by
  cases s <;> rfl

variable {e : Engine} {j : Job} {weights : Weights}

theorem runStage_begins (e : Engine) (j : Job) (s : Stage) (r : Run) {w : World} (hw : w.clock.Whole) :
    ∃ window q, ∃ now : Int, window.startOffset < window.endOffset ∧ q.found = r.found ∧
      q.generator = r.generator.advance ∧ q.logs = [] ∧ q.results = r.results ∧
        (e.runStage j s r w).2.1 = (record j s window (s.work j window (.int now) q)).2 := by
  obtain ⟨now, hnow⟩ := stamp_whole (pace_preserves World.untouched_whole
    (duration_preserves World.untouched_whole hw j s r.generator) e (duration j s r.generator w).1) e s r
  refine ⟨j.window r.offset (duration j s r.generator w).1,
    { r with
      generator := r.generator.advance
      offset := (j.window r.offset (duration j s r.generator w).1).endOffset
      logs := [] }, now,
    Int.lt_add_of_pos_right _ (duration_pos j s r.generator w), rfl, rfl, rfl, rfl, ?_⟩
  unfold runStage
  dsimp only
  rw [duration_snd, hnow]

/-- A stage draws its duration, what its work costs, its entries, and last the number of its span. -/
theorem runStage_metered (hlimits : j.limits.Usable) (hweights : j.user.weights.normalize = .ok weights) {s : Stage}
    {r : Run} {w : World} (hr : r.Metered j s.index) (hw : w.clock.Whole) :
    (e.runStage j s r w).2.1.Metered j (s.index + 1) := by
  have hkeeps : s.Keeps r (e.runStage j s r w).2.1 :=
    runStage_keeps (show _ = ((e.runStage j s r w).1, (e.runStage j s r w).2.1, (e.runStage j s r w).2.2) from rfl)
  have hcharges := hkeeps.charges hr
  obtain ⟨window, q, now, hlasts, hfound, hadvance, hlogs, hresults, hrun⟩ := runStage_begins e j s r hw
  have hunresolved (hs : s = .resolution) : q.resolved = none :=
    (congrArg Run.resolved hfound).trans (hr.unresolved (by rw [hs]))
  have hspends := s.work_spends hlimits hweights window now q hunresolved
  have hnotes := (s.work_sound (j := j) hlasts (.int now) q).notes
  rw [hrun] at hkeeps hcharges ⊢
  generalize s.work j window (.int now) q = a at hkeeps hcharges hspends hnotes ⊢
  constructor
  · change a.2.generator.seed = _
    rw [hspends.seed, hadvance]
    exact hr.seed
  · have hdrawn := hspends.drawn
    have hbefore := hr.drawn
    have hentries : a.2.entries = r.entries := by rw [Run.entries, hnotes.results, hresults, Run.entries]
    rw [hadvance, hlogs] at hdrawn
    change a.2.generator.drawn + 0 = r.generator.drawn + 1 + s.cost j a.2 + a.2.logs.length at hdrawn
    change a.2.generator.drawn + 1 = _
    rw [hcharges, entries_record, cost_record, hentries]
    omega
  · intro hn
    have hs : s ≠ .resolution := by
      rintro rfl
      exact absurd hn (Nat.not_succ_le_self _)
    exact (hkeeps.resolved hs).trans (hr.unresolved (Nat.le_of_succ_le hn))
  · intro hn
    have hs : s ≠ .authorization := by
      rintro rfl
      exact absurd hn (Nat.not_succ_le_self _)
    exact (hkeeps.authorization hs).trans (hr.unauthorized (Nat.le_of_succ_le hn))

variable {σ : Type} {observer : Observer σ}

theorem begin_metered {t : Transaction} {u : User} {r : Run} {w w' : World}
    (h : e.begin t u w = (.ok (j, r), w')) : j.seed = e.seed ∧ j.limits = e.limits ∧ r.Metered j 0 := by
  have hdrawn := Generator.correlationDigits_snd 32 0 (Generator.ofSeed e.seed)
  obtain ⟨-, hjob, rfl⟩ := begin_eq_ok h
  rw [hjob]
  refine ⟨rfl, rfl, congrArg Generator.seed hdrawn, ?_, fun _ => rfl, fun _ => rfl⟩
  exact congrArg Generator.drawn hdrawn

end Engine

/-- What can be counted of a run that returned: entries in its logs, instruments that were assessed, eligible children and
the turn taken among them where one was chosen, and the approval. -/
structure DrawCounts where
  entries : Nat
  instruments : Nat
  children : Nat
  turns : Nat
  approvals : Nat
  deriving DecidableEq, Repr

/-- Thirty-two digits of a correlation id, thirteen durations and thirteen spans, and what was decided by chance. -/
def DrawCounts.total (c : DrawCounts) : Nat :=
  32 + 26 + c.entries + 2 * c.instruments + (2 * c.children + c.turns) + (2 + c.approvals)

namespace RunResult

/-- The routing credential that was resolved, if one was. -/
def router? (result : RunResult) : Option RoutingCredential :=
  match result.audit.resolution, result.run.selected with
  | some _, some (.router router) => some router
  | _, _ => none

def counts (u : User) (result : RunResult) : DrawCounts where
  entries := (result.trace.results.map fun s => s.logs.length).sum
  instruments := u.instruments.length
  children :=
    match result.router? with
    | some router => (Resolution.eligibleChildren router).length
    | none => 0
  turns :=
    match result.router? with
    | some router => if router.strategy = .roundRobin then 1 else 0
    | none => 0
  approvals :=
    match result.audit.authorization with
    | some a => if a.approved then 1 else 0
    | none => 0

end RunResult

theorem Engine.choiceCost_eq_counts (j : Job) (r : Run) (u : User) (weights : Weights) (ended audited : Int)
    (nudges : List Nudge) :
    let counts := RunResult.counts u ⟨traceOf j r ended, auditOf j r weights audited, nudges, r⟩
    r.choiceCost = 2 * counts.children + counts.turns := by
  rcases hselected : r.selected with _ | c | router
  · simp [RunResult.counts, RunResult.router?, Run.choiceCost, hselected]
  · simp [RunResult.counts, RunResult.router?, Run.choiceCost, hselected]
  · rcases hresolved : r.resolved with _ | resolved
    · simp [RunResult.counts, RunResult.router?, auditOf, Run.choiceCost, hselected, hresolved]
    · have hrouter : r.isRouter = true := by
        rw [Run.isRouter, hselected]
        rfl
      simp only [RunResult.counts, RunResult.router?, auditOf, Run.choiceCost, hselected, hresolved, hrouter, if_true,
        Option.map_some, Resolution.cost]
      cases router.strategy <;> simp [Resolution.turnCost, Nat.add_comm]

theorem Engine.decisionCost_eq_counts (j : Job) {r : Run} {a : Authorization} (h : r.authorization = some a) (u : User)
    (weights : Weights) (ended audited : Int) (nudges : List Nudge) :
    let counts := RunResult.counts u ⟨traceOf j r ended, auditOf j r weights audited, nudges, r⟩
    r.decisionCost = 2 + counts.approvals := by
  simp only [RunResult.counts, auditOf, Run.decisionCost, h]
  split <;> rfl

/-- A run that returned, with limits that are usable and by a clock of whole milliseconds, which no observer changes. -/
inductive Engine.Completes (e : Engine) (t : Transaction) (u : User) (result : RunResult) : Prop where
  | intro {σ : Type} {observer : Observer σ} {kept kept' : σ} {w w' : World} (limits : e.limits.Usable)
      (whole : w.clock.Whole)
      (calm : ∀ e result kept w, w.clock.Whole → (observer.after e result kept w).2.2.clock.Whole)
      (run : e.run t u observer kept w = (.ok result, kept', w'))

namespace Engine.Completes

variable {e : Engine} {t : Transaction} {u : User} {result : RunResult}

theorem generator (h : e.Completes t u result) :
    result.run.generator = ⟨e.seed, (result.counts u).total⟩ := by
  obtain ⟨hlimits, hwhole, hcalm, hrun⟩ := h
  obtain ⟨a, ha, -⟩ := (Payment.of_run hrun).authorized (by decide)
  obtain ⟨j, r, w₁, r', w₂, hbegin, hstages, hconclude⟩ := run_eq_ok hrun
  obtain ⟨hseed, hjob, hmetered⟩ := begin_metered hbegin
  obtain ⟨-, -, rfl, -, -, g, -⟩ := begin_ok hbegin
  obtain ⟨weights, audited, ended, nudges, hused, -, rfl⟩ := conclude_ok hconclude
  obtain ⟨table, -, hscored⟩ := (findings_of_begin hbegin hstages).exists_table hused
  have hwhole₁ := begin_preserves World.untouched_whole hwhole { e with busy := true } t j.user
  rw [hbegin] at hwhole₁
  have hfinal : r'.Metered j Stage.all.length :=
    runStages_induction_within World.untouched_whole hcalm (Q := fun n r => r.Metered j n)
      (fun hr hw => runStage_metered (by rw [hjob]; exact hlimits) (ScoreTable.normalize_of_ok hscored) hr hw)
      Stage.all rfl hmetered hwhole₁ hstages
  have hdrawn := hfinal.drawn
  have hchoice := choiceCost_eq_counts j r' j.user weights ended audited.whole nudges
  have hdecision := decisionCost_eq_counts j ha j.user weights ended audited.whole nudges
  have hcharges : r'.charges j Stage.all.length = 2 * j.user.instruments.length + r'.choiceCost + r'.decisionCost := rfl
  have hstart : Stage.all.length = 13 := rfl
  have htotal : r'.generator.drawn = (RunResult.counts j.user
      ⟨traceOf j r' ended, auditOf j r' weights audited.whole, nudges, r'⟩).total := by
    rw [hdrawn, hcharges, hchoice, hdecision, hstart]
    simp only [DrawCounts.total, Run.entries]
    change _ = 32 + 26 + (r'.results.map fun result => result.logs.length).sum + 2 * j.user.instruments.length + _ + _
    omega
  change r'.generator = _
  rw [← htotal, ← hfinal.seed.trans hseed]

end Engine.Completes

namespace Sample

/-- One routing credential, which two of its children take turns for. -/
def turning : User :=
  { user with
    credentials := []
    routingCredentials :=
      [⟨(card "router").toTerms, [card "x", { card "y" with eligible := false }, card "z"], .roundRobin⟩] }

end Sample

end WalletRouting
