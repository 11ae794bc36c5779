import WalletRouting.Proofs.Resolution.Choice
import WalletRouting.Proofs.Run.Destination
import WalletRouting.Proofs.Run.Timeline

/-! # Who pays, and at which risk

Selection, resolution, injection and authorization follow on one another and speak only through what the run has found.
Who pays is fixed when a credential is injected, and the authorization is asked for at the risk that was assessed of it.
Neither waits for a credential: where nothing is selected nothing is injected, and the authorization is asked for at a
default.
-/
namespace WalletRouting
set_option autoImplicit false

/-- The instruments that a run may pay with: what it selected, or an eligible child of the routing credential that it
selected. A routing credential pays itself only where it could not be resolved. -/
inductive Run.Pays (u : User) (r : Run) : Instrument → Prop where
  | held {i : Instrument} (hi : i ∈ u.instruments) (hselected : r.selected = some i)
      (hunresolved : i.isRouter = true → r.resolved = none) : Pays u r i
  | child {router : RoutingCredential} {c : Credential} (hrouter : router ∈ u.routingCredentials)
      (hselected : r.selected = some (.router router)) (hchild : c ∈ Resolution.eligibleChildren router) :
      Pays u r (.card c)

/-- What the stage that injects a credential shows, where that is the one. -/
structure StageResult.Injects (s : StageResult) (final : Option Instrument) : Prop where
  stage : s.stage = Stage.injection.name
  status : s.status = .completed
  outputs : s.outputs = (StageOutput.injected (final.map (·.id)) (final.map (·.terms.dpan))).members

namespace Stage.Keeps

variable {s : Stage} {r r' : Run}

theorem funding (h : s.Keeps r r') (hs : Stage.injection.index ≤ s.index) : Work.funding r' = Work.funding r := by
  have hlt : Stage.resolution.index < s.index := Nat.lt_of_lt_of_le (by decide) hs
  rw [Work.funding, Work.funding, Run.isRouter, Run.isRouter, h.selected (ne_of_index_lt hlt (by decide)),
    h.resolved (ne_of_index_lt hlt (Nat.le_refl _))]

theorem declineProbability (h : s.Keeps r r') (hs : Stage.authorization.index ≤ s.index) :
    Work.declineProbability r' = Work.declineProbability r := by
  have hlt : Stage.injection.index < s.index := Nat.lt_of_lt_of_le (by decide) hs
  rw [Work.declineProbability, Work.declineProbability, Work.finalAssessment, Work.finalAssessment, Run.known, Run.known,
    h.assessments (ne_of_index_lt hlt (by decide)), h.resolved (ne_of_index_lt hlt (by decide)),
    h.final (ne_of_index_lt hlt (Nat.le_refl _))]

end Stage.Keeps

theorem Engine.resolved_of_runStage {e : Engine} {j : Job} {s : Stage} {r r' : Run} {w w' : World}
    {result : StageResult} {x : Resolved} (hrun : e.runStage j s r w = (result, r', w')) (hx : r'.resolved = some x) :
    r.resolved = some x ∨ s = .resolution ∧ ∃ router now g, r.selected = some (.router router) ∧
      (Resolution.resolve router r.context j.user r.ruling.guidance j.limits (.num now) g).1 = .ok x := by
  by_cases hs : s = .resolution
  · subst hs
    obtain ⟨window, now, q, hq, hfound, -⟩ := runStage_work hrun
    obtain ⟨resolved, hnew, hwhence⟩ := Work.found_resolveRouter j window q now
    have hx : resolved = some x := by
      rw [← hx]
      exact (congrArg (fun p : Run => p.resolved) (hfound.trans hnew)).symm
    rcases hwhence x hx with hbefore | ⟨router, hrouter, hresolves⟩
    · change q.found.resolved = some x at hbefore
      rw [hq] at hbefore
      exact Or.inl hbefore
    · change q.found.selected = some (.router router) at hrouter
      change (Resolution.resolve router q.found.context j.user q.found.ruling.guidance j.limits (.num now)
        q.generator).1 = .ok x at hresolves
      rw [hq] at hrouter hresolves
      exact Or.inr ⟨rfl, router, now, q.generator, hrouter, hresolves⟩
  · rw [(runStage_keeps hrun).resolved hs] at hx
    exact Or.inl hx

/-- What a run knows of its payment when the first so many stages are behind it. -/
structure Payment (n : Nat) (r : Run) : Prop where
  resolved : ∀ x, r.resolved = some x → Stage.resolution.index < n ∧
    ∃ router, r.selected = some (.router router) ∧ x.resolution.child ∈ Resolution.eligibleChildren router
  final : Stage.injection.index < n → r.final = Work.funding r
  injected : Stage.injection.index < n → ∃ s ∈ r.results, s.Injects r.final
  authorized : Stage.authorization.index < n →
    ∃ a, r.authorization = some a ∧ a.declineProbability = Work.declineProbability r

namespace Payment

theorem initial (t : Transaction) (g : Generator) : Payment 0 (Run.initial t g) where
  resolved x h := by cases h
  final h := absurd h (Nat.not_lt_zero _)
  injected h := absurd h (Nat.not_lt_zero _)
  authorized h := absurd h (Nat.not_lt_zero _)

variable {e : Engine} {j : Job} {s : Stage} {r r' : Run} {w w' : World} {result : StageResult}

theorem resolved_runStage (h : Payment s.index r) (hrun : e.runStage j s r w = (result, r', w')) {x : Resolved}
    (hx : r'.resolved = some x) : Stage.resolution.index < s.index + 1 ∧
      ∃ router, r'.selected = some (.router router) ∧ x.resolution.child ∈ Resolution.eligibleChildren router := by
  have hkeeps := Engine.runStage_keeps hrun
  rcases Engine.resolved_of_runStage hrun hx with hbefore | ⟨rfl, router, now, g, hrouter, hresolves⟩
  · obtain ⟨hlt, router, hrouter, hchild⟩ := h.resolved x hbefore
    exact ⟨Nat.lt_succ_of_lt hlt, router, (hkeeps.selected (Stage.ne_of_index_lt hlt (by decide))).trans hrouter,
      hchild⟩
  · exact ⟨Nat.lt_succ_self _, router, (hkeeps.selected (by decide)).trans hrouter,
      Resolution.resolve_child_mem hresolves⟩

theorem final_runStage (h : Payment s.index r) (hrun : e.runStage j s r w = (result, r', w'))
    (hn : Stage.injection.index < s.index + 1) : r'.final = Work.funding r' := by
  have hkeeps := Engine.runStage_keeps hrun
  rw [hkeeps.funding (Nat.le_of_lt_succ hn)]
  by_cases hs : s = .injection
  · subst hs
    obtain ⟨window, now, q, hq, hfound, -⟩ := Engine.runStage_work hrun
    have hfinal : r'.final = Work.funding q.found := congrArg (fun p : Run => p.final) hfound
    rw [hfinal, hq]
    rfl
  · rw [hkeeps.final hs]
    exact h.final (Stage.index_lt_of_ne hn hs)

theorem injected_runStage (h : Payment s.index r) (hrun : e.runStage j s r w = (result, r', w'))
    (hn : Stage.injection.index < s.index + 1) : ∃ shown ∈ r'.results, shown.Injects r'.final := by
  obtain ⟨span, hrecorded, -, hresults, -, -⟩ := Engine.runStage_recorded hrun
  rw [hresults]
  by_cases hs : s = .injection
  · subst hs
    obtain ⟨window, now, q, -, hfound, hresult⟩ := Engine.runStage_work hrun
    have hfinal : r'.final = Work.funding q := congrArg (fun p : Run => p.final) hfound
    refine ⟨result, List.mem_append_right _ List.mem_cons_self, hrecorded.stage, ?_, ?_⟩
    · rw [hresult]
      rfl
    · rw [hresult, hfinal]
      rfl
  · obtain ⟨shown, hmem, hshown⟩ := h.injected (Stage.index_lt_of_ne hn hs)
    rw [(Engine.runStage_keeps hrun).final hs]
    exact ⟨shown, List.mem_append_left _ hmem, hshown⟩

theorem authorized_runStage (h : Payment s.index r) (hrun : e.runStage j s r w = (result, r', w'))
    (hn : Stage.authorization.index < s.index + 1) :
    ∃ a, r'.authorization = some a ∧ a.declineProbability = Work.declineProbability r' := by
  have hkeeps := Engine.runStage_keeps hrun
  rw [hkeeps.declineProbability (Nat.le_of_lt_succ hn)]
  by_cases hs : s = .authorization
  · subst hs
    obtain ⟨window, now, q, hq, hfound, -⟩ := Engine.runStage_work hrun
    obtain ⟨a, hnew, hdecline⟩ := Work.found_authorize j window q
    change a.declineProbability = Work.declineProbability q.found at hdecline
    rw [hq] at hdecline
    exact ⟨a, congrArg (fun p : Run => p.authorization) (hfound.trans hnew), hdecline⟩
  · rw [hkeeps.authorization hs]
    exact h.authorized (Stage.index_lt_of_ne hn hs)

theorem runStage (h : Payment s.index r) (hrun : e.runStage j s r w = (result, r', w')) :
    Payment (s.index + 1) r' where
  resolved _ := h.resolved_runStage hrun
  final := h.final_runStage hrun
  injected := h.injected_runStage hrun
  authorized := h.authorized_runStage hrun

variable {σ : Type} {t : Transaction} {u : User} {observer : Observer σ} {kept kept' : σ}

theorem of_run {result : RunResult} (hrun : e.run t u observer kept w = (.ok result, kept', w')) :
    Payment Stage.all.length result.run := Engine.run_induction initial runStage hrun

theorem funding_cases {n : Nat} (h : Payment n r) (hn : Stage.injection.index < n) :
    (r.resolved = none ∧ r.final = r.selected) ∨
      ∃ router c, r.selected = some (.router router) ∧ r.final = some (.card c) ∧
        c ∈ Resolution.eligibleChildren router := by
  rw [h.final hn]
  cases hresolved : r.resolved with
  | none => exact Or.inl ⟨rfl, by rw [Work.funding, hresolved]⟩
  | some x =>
    obtain ⟨-, router, hrouter, hchild⟩ := h.resolved x hresolved
    refine Or.inr ⟨router, x.resolution.child, hrouter, ?_, hchild⟩
    rw [Work.funding, hresolved, Run.isRouter, hrouter]
    rfl

theorem pays {n : Nat} (h : Payment n r) (hn : Stage.injection.index < n)
    (hheld : ∀ i, r.selected = some i → i ∈ u.instruments) {i : Instrument} (hi : r.final = some i) : r.Pays u i := by
  rcases h.funding_cases hn with ⟨hresolved, hfinal⟩ | ⟨router, c, hselected, hfinal, hchild⟩
  · rw [hi] at hfinal
    exact .held (hheld i hfinal.symm) hfinal.symm fun _ => hresolved
  · rw [hi] at hfinal
    cases hfinal
    have hrouter : router ∈ u.routingCredentials := by simpa [User.instruments] using hheld _ hselected
    exact .child hrouter hselected hchild

theorem selected_eq_none {n : Nat} (h : Payment n r) (hn : Stage.injection.index < n) (hfinal : r.final = none) :
    r.selected = none := by
  rcases h.funding_cases hn with ⟨-, hselected⟩ | ⟨router, c, -, hchild, -⟩
  · exact hselected.symm.trans hfinal
  · rw [hfinal] at hchild
    cases hchild

end Payment

namespace Sample

def routed : User :=
  { user with
    credentials := []
    routingCredentials :=
      [⟨(card "router").toTerms, [{ card "x" with eligible := false }, card "y"], .lowestUtilization⟩] }

def penniless : User := { user with credentials := [] }

/-- There is room on the one card, so that nothing is unusual about a purchase with it. -/
def unremarkable : User := { user with credentials := [{ card "a" with limit := 1000 }] }

end Sample

namespace Engine

variable {σ : Type} {e : Engine} {t : Transaction} {u : User} {observer : Observer σ} {kept kept' : σ} {w w' : World}
  {result : RunResult}

/-- Every run that returns was authorized or declined after a stage that showed what it injects. That is whoever pays;
or the user holds nothing of the id that was selected, if any was, and the authorization was asked for at the default. -/
theorem run_pays_or_unselected (hrun : e.run t u observer kept w = (.ok result, kept', w')) :
    ∃ a, result.audit.authorization = some a ∧ (∃ s ∈ result.trace.results, s.Injects result.run.final) ∧
      ((∃ i, result.run.final = some i ∧ result.audit.dpan = i.terms.dpan ∧ result.run.Pays u i) ∨
        result.run.final = none ∧ result.audit.dpan = "N/A" ∧
          (∀ i ∈ u.instruments, some i.id ≠ result.run.selectedId) ∧ a.declineProbability = Work.defaultDecline) := by
  have hpayment := Payment.of_run hrun
  obtain ⟨a, ha, hdecline⟩ := hpayment.authorized (by decide)
  obtain ⟨j, weights, audited, -, rfl, rfl, -, -, hfindings, hweights, haudit⟩ := run_ok hrun
  obtain ⟨table, htable, -⟩ := hfindings.exists_table hweights
  obtain ⟨-, hselected⟩ := hfindings.selected (by decide) table htable
  refine ⟨a, by rw [haudit]; exact ha, ?_, ?_⟩
  · have htrace : result.trace.results = result.run.results := by
      obtain ⟨j, ended, audited, weights, -, htrace, -⟩ := run_timeline hrun
      rw [htrace]
      rfl
    rw [htrace]
    exact hpayment.injected (by decide)
  · cases hfinal : result.run.final with
    | some i =>
      refine Or.inl ⟨i, rfl, by simp [haudit, auditOf, hfinal], hpayment.pays (by decide) ?_ hfinal⟩
      intro i hi
      exact (Work.mem_of_instrument? (hselected.symm.trans hi)).1
    | none =>
      rw [hpayment.selected_eq_none (by decide) hfinal] at hselected
      refine Or.inr ⟨rfl, by simp [haudit, auditOf, hfinal], Work.instrument?_eq_none_iff.mp hselected.symm, ?_⟩
      rw [hdecline, Work.declineProbability, Work.finalAssessment, hfinal]
      rfl

theorem run_pays_child_of_routed :
    ∃ result kept w i, Sample.engine.run Sample.purchase Sample.routed Observer.silent () (Sample.world []) =
        (.ok result, kept, w) ∧ result.run.final = some i ∧ i.id = "y" ∧ result.audit.dpan = i.terms.dpan ∧
          result.run.Pays Sample.routed i := by
  have hok : (Sample.engine.run Sample.purchase Sample.routed Observer.silent () (Sample.world [])).1.toOption.map
      (fun r => r.run.final.map fun i => i.id) = some (some "y") := by
    decide +kernel
  obtain ⟨result, kept, w, hrun, hfinal⟩ := exists_ok_of_map hok
  obtain ⟨i, hi, hid⟩ := Option.map_eq_some_iff.mp hfinal
  obtain ⟨a, -, -, ⟨i', hi', hdpan, hpays⟩ | ⟨hnone, -⟩⟩ := run_pays_or_unselected hrun
  · obtain rfl : i = i' := Option.some.inj (hi.symm.trans hi')
    exact ⟨result, kept, w, i, hrun, hi, hid, hdpan, hpays⟩
  · rw [hnone] at hi
    cases hi

/-- Who holds nothing can be approved all the same. -/
theorem approves_without_funding :
    ∃ result kept w a, Sample.engine.run Sample.purchase Sample.penniless Observer.silent () (Sample.world []) =
        (.ok result, kept, w) ∧ result.audit.authorization = some a ∧ a.approved = true ∧ result.run.final = none ∧
          result.audit.dpan = "N/A" := by
  have hok : (Sample.engine.run Sample.purchase Sample.penniless Observer.silent () (Sample.world [])).1.toOption.map
      (fun r => (r.audit.authorization.map fun a => a.approved, r.run.final.isNone, r.audit.dpan)) =
        some (some true, true, "N/A") := by
    decide +kernel
  obtain ⟨result, kept, w, hrun, hread⟩ := exists_ok_of_map hok
  simp only [Prod.mk.injEq, Option.map_eq_some_iff, Option.isNone_iff_eq_none] at hread
  obtain ⟨⟨a, ha, happroved⟩, hfinal, hdpan⟩ := hread
  exact ⟨result, kept, w, a, hrun, ha, happroved, hfinal, hdpan⟩

/-- The record shows the probability that was assessed of whoever pays. The authorization is asked for at the same one
exactly if it is not zero, and at the default where nothing was assessed. -/
theorem authorization_of_assessment (hrun : e.run t u observer kept w = (.ok result, kept', w')) :
    ∃ a, result.audit.authorization = some a ∧
      (∀ i s, result.run.final = some i → result.run.known.get? i.id = some s →
        result.audit.decline = s.decline ∧ (a.declineProbability = s.decline ↔ (s.decline == 0.0) = false)) ∧
      ((∀ i, result.run.final = some i → result.run.known.get? i.id = none) →
        a.declineProbability = Work.defaultDecline) := by
  obtain ⟨a, ha, hdecline⟩ := (Payment.of_run hrun).authorized (by decide)
  obtain ⟨j, weights, audited, -, -, -, -, -, -, -, haudit⟩ := run_ok hrun
  refine ⟨a, by rw [haudit]; exact ha, ?_, ?_⟩
  · intro i s hfinal hassessed
    have hassessment : Work.finalAssessment result.run = some s := by
      rw [Work.finalAssessment, hfinal]
      exact hassessed
    refine ⟨by simp [haudit, auditOf, hassessment], ?_⟩
    rw [hdecline, Work.declineProbability, hassessment]
    dsimp only
    cases hzero : s.decline == 0.0 with
    | false => simp
    | true =>
      -- The default is no zero, so that it is not what was assessed.
      have hdefault : (Work.defaultDecline == 0.0) = false := by decide +kernel
      simp only [if_true, Bool.true_eq_false, iff_false]
      intro heq
      rw [heq, hzero] at hdefault
      cases hdefault
  · intro hnone
    have hassessment : Work.finalAssessment result.run = none := Option.bind_eq_none_iff.mpr hnone
    rw [hdecline, Work.declineProbability, hassessment]

theorem authorization_of_assessment_of_card :
    ∃ result kept w a, Sample.run [] = (.ok result, kept, w) ∧ result.audit.authorization = some a ∧
      a.declineProbability = result.audit.decline := by
  have hok : (Sample.run []).1.toOption.map
      (fun r => (Work.finalAssessment r.run).map fun s => s.decline == 0.0) = some (some false) := by
    decide +kernel
  obtain ⟨result, kept, w, hrun, hread⟩ := exists_ok_of_map hok
  obtain ⟨s, hassessment, hne⟩ := Option.map_eq_some_iff.mp hread
  obtain ⟨i, hfinal, hassessed⟩ := Option.bind_eq_some_iff.mp hassessment
  obtain ⟨a, ha, hshown, -⟩ := authorization_of_assessment hrun
  obtain ⟨hdecline, hsame⟩ := hshown i s hfinal hassessed
  exact ⟨result, kept, w, a, hrun, ha, (hsame.mpr hne).trans hdecline.symm⟩

/-- Where a decline is assessed as impossible, the authorization is asked for at the default. -/
theorem authorization_misses_zero :
    ∃ result kept w a s, ({ Sample.engine with seed := 0 } : Engine).run Sample.purchase Sample.unremarkable
        Observer.silent () (Sample.world []) = (.ok result, kept, w) ∧ result.audit.authorization = some a ∧
      Work.finalAssessment result.run = some s ∧ s.decline = 0.0 ∧ result.audit.decline = 0.0 ∧
        a.declineProbability = 0.05 := by
  have hok : (({ Sample.engine with seed := 0 } : Engine).run Sample.purchase Sample.unremarkable Observer.silent ()
      (Sample.world [])).1.toOption.map (fun r => (r.audit.authorization.map fun a => a.declineProbability,
        (Work.finalAssessment r.run).map fun s => s.decline, r.audit.decline)) = some (some 0.05, some 0.0, 0.0) := by
    decide +kernel
  obtain ⟨result, kept, w, hrun, hread⟩ := exists_ok_of_map hok
  simp only [Prod.mk.injEq, Option.map_eq_some_iff] at hread
  obtain ⟨⟨a, ha, hdefault⟩, ⟨s, hs, hzero⟩, hdecline⟩ := hread
  exact ⟨result, kept, w, a, s, hrun, ha, hs, hzero, hdecline, hdefault⟩

end Engine

end WalletRouting
