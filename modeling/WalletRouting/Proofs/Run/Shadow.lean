import WalletRouting.Proofs.Run.Selection
import WalletRouting.Proofs.Score.Contest

/-! # The shadow of an override

Where an override takes a route that did not score best, the run records who did. An override also lifts the vetoes, of
all instruments. So the shadow is whom the same purchase would have been routed to without the override, if vetoes were
lifted there too; with the vetoes, it is exactly if it is not vetoed itself.
-/
namespace WalletRouting
set_option autoImplicit false

namespace Ruling

/-- The ruling with its override taken away: nothing is forced, and what was overridden excludes again. -/
def withoutOverride (s : Ruling) : Ruling :=
  { s with
    hardOverride := false
    forcedId := none
    excluded := s.overridden.foldl (fun m v => m.put v.credentialId v.reason) s.excluded }

/-- The same, but with the vetoes lifted as under an override. -/
def withoutForce (s : Ruling) : Ruling := { s.withoutOverride with hardOverride := true }

theorem get?_excluded_withoutOverride {s : Ruling} {id : String} (h : ∀ v ∈ s.overridden, v.credentialId ≠ id) :
    s.withoutOverride.excluded.get? id = s.excluded.get? id := by
  refine List.foldlRecOn (motive := fun m : Keyed String => m.get? id = s.excluded.get? id) s.overridden _ rfl ?_
  intro m hm v hv
  rw [Keyed.get?_put_of_ne (h v hv).symm, hm]

theorem Decides.reason_withoutOverride {met : List Encounter} {s : Ruling} (h : Decides met s) {id : String}
    (hid : s.forcedId ≠ some id) : s.withoutOverride.guidance.reason id = s.guidance.reason id := by
  have hother : ∀ v ∈ s.overridden, v.credentialId ≠ id := by
    rintro v hv rfl
    have hyields := h.yields_of_overridden hv
    simp only [yields, Bool.and_eq_true, decide_eq_true_eq] at hyields
    exact hid hyields.2
  change (s.withoutOverride.excluded.get? id).getD "" = (s.excluded.get? id).getD ""
  rw [get?_excluded_withoutOverride hother]

end Ruling

namespace ScoreTable

/-- Whom a ruling routes to: the wallet is scored by it and a route is selected. -/
def pick (instruments : List Instrument) (t : Transaction) (u : User) (assessments : Keyed RiskAssessment)
    (s : Ruling) : Except TableError (Option String) :=
  (ofInstruments instruments t u s.guidance assessments s.forcedId).map fun table => table.selected? s

theorem pick_of_unforced {instruments : List Instrument} {t : Transaction} {u : User}
    {assessments : Keyed RiskAssessment} {s : Ruling} {weights : Weights} (hweights : u.weights.normalize = .ok weights)
    (hnone : s.forcedId = none) :
    pick instruments t u assessments s = .ok
      (((contest weights t u s.guidance assessments instruments).find? (passes s.guidance assessments none)).map
        fun i => i.id) := by
  have htable := ofInstruments_of_ruling hweights instruments t s assessments none
  rw [pick, hnone, htable, ← top_ofInstruments weights t u s.guidance assessments none hweights htable]
  simp [Except.map, selected?, hnone, given]

end ScoreTable

namespace Stage

open Work (instrument? shadowOf)

theorem work_keeps_shadow {s : Stage} (j : Job) (w : Window) (now : Number) (r : Run) (hs : s ≠ .selection) :
    (s.work j w now r).2.shadow = r.shadow := by
  have hfound {r' q : Run} (h : r'.found = q) : r'.shadow = q.shadow := by
    rw [← h]
    rfl
  cases s with
  | ingest => exact (hfound (Work.found_ingest j w r)).trans rfl
  | context => exact (hfound (Work.found_extractContext j w r now)).trans rfl
  | profile => exact (hfound (Work.found_fetchProfile j w r)).trans rfl
  | policyLoad => exact (hfound (Work.found_loadPolicy j w r)).trans rfl
  | compile => exact (hfound (Work.found_compileRules j w r)).trans rfl
  | evaluation => exact (hfound (Work.found_evaluateRules j w r)).trans rfl
  | filtering => exact (hfound (Work.found_filterCandidates j w r)).trans rfl
  | scoring => exact (hfound (Work.found_score j w r)).trans rfl
  | selection => exact absurd rfl hs
  | resolution =>
    obtain ⟨resolved, h, -⟩ := Work.found_resolveRouter j w r now
    exact (hfound h).trans rfl
  | injection => exact (hfound (Work.found_injectCredential j w r)).trans rfl
  | authorization =>
    obtain ⟨a, h, -⟩ := Work.found_authorize j w r
    exact (hfound h).trans rfl
  | audit => exact (hfound (Work.found_emitAudit j w r)).trans rfl

end Stage

/-- What is known of the shadow when the first so many stages are behind a run. -/
structure Run.Casts (n : Nat) (r : Run) : Prop where
  before : n ≤ Stage.selection.index → r.shadow = none
  after : Stage.selection.index < n →
    r.shadow = r.table.bind fun table => (Work.shadowOf r.ruling table r.selectedId r.selected).map Prod.snd

namespace Run.Casts

variable {j : Job} {r r' : Run} {n : Nat}

theorem of_found (h : Run.Casts n r) (hfound : r'.found = r.found) : Run.Casts n r' := by
  have h : Run.Casts n r.found := ⟨h.before, h.after⟩
  rw [← hfound] at h
  exact ⟨h.before, h.after⟩

theorem work {s : Stage} (w : Window) (now : Number) (h : Run.Casts s.index r) :
    Run.Casts (s.index + 1) (s.work j w now r).2 := by
  have hkeeps := s.work_keeps j w now r
  constructor
  · intro hn
    have hs : s ≠ .selection := by
      rintro rfl
      omega
    rw [Stage.work_keeps_shadow j w now r hs]
    exact h.before (by omega)
  · intro hn
    by_cases hs : s = .selection
    · subst hs
      have hnone := h.before (Nat.le_refl _)
      have hfound := Work.found_selectRoute j w r
      rw [hkeeps.table (by decide), hkeeps.ruling (by decide)]
      cases htable : r.table with
      | none =>
        rw [htable] at hfound
        dsimp only at hfound
        refine (congrArg (fun q : Run => q.shadow) hfound).trans ?_
        split <;> exact hnone
      | some table =>
        rw [htable] at hfound
        have hid := congrArg (fun q : Run => q.selectedId) hfound
        have hselected := congrArg (fun q : Run => q.selected) hfound
        change (Stage.selection.work j w now r).2.selectedId = _ at hid
        change (Stage.selection.work j w now r).2.selected = _ at hselected
        rw [hid, hselected]
        refine (congrArg (fun q : Run => q.shadow) hfound).trans ?_
        dsimp only
        rw [hnone, Option.or_none]
        rfl
    · have hlt := Stage.index_lt_of_ne hn hs
      rw [Stage.work_keeps_shadow j w now r hs, hkeeps.selectedId hs, hkeeps.selected hs,
        hkeeps.table (Stage.ne_of_index_lt hlt (by decide)), hkeeps.ruling (Stage.ne_of_index_lt hlt (by decide))]
      exact h.after hlt

theorem runStage {s : Stage} {e : Engine} {w w' : World} {result : StageResult} (h : Run.Casts s.index r)
    (hrun : e.runStage j s r w = (result, r', w')) : Run.Casts (s.index + 1) r' := by
  obtain ⟨window, now, q, hq, hfound, -⟩ := Engine.runStage_work hrun
  exact of_found ((h.of_found hq).work window now) hfound

end Run.Casts

namespace Findings

variable {j : Job} {r : Run}

/-- The shadow of a run is the top of its table, which the gates let pass under the override, and it is not the route. -/
theorem shadow_cases (h : Findings j Stage.all.length r) (hvalid : ∀ x ∈ j.policy.rules, x.isValid = true)
    (hcasts : Run.Casts Stage.all.length r) {shadow : Shadow} (hshadow : r.shadow = some shadow) :
    ∃ table, r.table = some table ∧ table.top.map (fun row => row.credentialId) = some shadow.wouldHave ∧
      r.ruling.hardOverride = true ∧ r.ruling.forcedId ≠ some shadow.wouldHave := by
  rw [hcasts.after (by decide)] at hshadow
  obtain ⟨table, htable, hshadow⟩ := Option.bind_eq_some_iff.mp hshadow
  obtain ⟨⟨top, shadow⟩, hof, rfl⟩ := Option.map_eq_some_iff.mp hshadow
  unfold Work.shadowOf at hof
  cases htop : table.top with
  | none =>
    rw [htop] at hof
    cases hof
  | some first =>
    rw [htop] at hof
    dsimp only at hof
    split at hof
    · next hcond =>
      cases hof
      refine ⟨table, htable, by rw [htop]; rfl, hcond.1, ?_⟩
      intro hforced
      obtain ⟨rule, f, -, -, hf, hid, -⟩ := h.exists_forcing hvalid hcond.1
      have hselected := (h.selected (by decide) table htable).1
      have hgiven : given r.ruling.forcedId = true := by simp [given, hid, hf]
      rw [ScoreTable.selected?, if_pos ⟨hcond.1, hgiven⟩, hforced] at hselected
      exact hcond.2 hselected.symm
    · cases hof

end Findings

namespace ScoreTable

variable {s : Ruling} {met : List Encounter} {assessments : Keyed RiskAssessment} {i : Instrument}

/-- With the vetoes lifted, whoever is not forced passes without the override as under it. -/
theorem passes_withoutForce (h : Ruling.Decides met s) (hover : s.hardOverride = true) (hi : s.forcedId ≠ some i.id) :
    passes s.withoutForce.guidance assessments none i = true ↔ passes s.guidance assessments s.forcedId i = true := by
  have hreason : s.withoutForce.guidance.reason i.id = s.guidance.reason i.id := h.reason_withoutOverride hi
  have hlifted : s.withoutForce.guidance.hardOverride = true := rfl
  have hlifted' : s.guidance.hardOverride = true := hover
  rw [passes_iff (by simp), passes_iff hi, hreason, hlifted, hlifted']

theorem passes_withoutOverride :
    passes s.withoutOverride.guidance assessments none i = true ↔
      passes s.withoutForce.guidance assessments none i = true ∧
        ∀ a, assessments.get? i.id = some a → a.veto = false := by
  have hreason : s.withoutForce.guidance.reason i.id = s.withoutOverride.guidance.reason i.id := rfl
  have hlifted : s.withoutForce.guidance.hardOverride = true := rfl
  have hvetoes : s.withoutOverride.guidance.hardOverride = false := rfl
  rw [passes_iff (by simp), passes_iff (by simp), hreason, hlifted, hvetoes]
  simp [and_assoc]

end ScoreTable

namespace Engine

open ScoreTable (contest passes pick)

variable {σ : Type}

theorem run_casts {e : Engine} {t : Transaction} {u : User} {observer : Observer σ} {kept kept' : σ} {w w' : World}
    {result : RunResult} (h : e.run t u observer kept w = (.ok result, kept', w')) :
    Run.Casts Stage.all.length result.run := by
  have hinitial (t : Transaction) (g : Generator) : Run.Casts 0 (Run.initial t g) :=
    ⟨fun _ => rfl, fun hn => absurd hn (Nat.not_lt_zero _)⟩
  exact run_induction hinitial Run.Casts.runStage h

/-- Whoever a run records as its shadow is whom it would have routed to without the force and with the vetoes lifted as
they were. With the vetoes as they are without an override, it would have routed there exactly if there is no veto of the
shadow itself. -/
theorem shadow_without_override {e : Engine} {t : Transaction} {u : User} {observer : Observer σ} {kept kept' : σ}
    {w w' : World} {p : PolicyVersion} {result : RunResult} {shadow : Shadow} (hpolicy : w.registry.active = .ok p)
    (hvalid : ∀ r ∈ p.rules, r.isValid = true) (hdistinct : (u.instruments.map fun i => i.id).Nodup)
    (hrun : e.run t u observer kept w = (.ok result, kept', w')) (hshadow : result.audit.shadow = some shadow) :
    pick u.instruments result.run.context u result.run.assessments result.run.ruling.withoutForce =
        .ok (some shadow.wouldHave) ∧
      ∃ id, pick u.instruments result.run.context u result.run.assessments result.run.ruling.withoutOverride = .ok id ∧
        (id = some shadow.wouldHave ↔
          ∀ a, result.run.assessments.get? shadow.wouldHave = some a → a.veto = false) := by
  have hcasts := run_casts hrun
  obtain ⟨j, weights, audited, hactive, rfl, rfl, -, -, hfindings, hweights, haudit⟩ := run_ok hrun
  obtain rfl : j.policy = p := Except.ok.inj (hactive.symm.trans hpolicy)
  have hshadow : result.run.shadow = some shadow := by
    rw [haudit] at hshadow
    exact hshadow
  obtain ⟨table, htable, htop, hover, hother⟩ := hfindings.shadow_cases hvalid hcasts hshadow
  have hscored := hfindings.scored (by decide) htable
  obtain ⟨weights, hweights⟩ := ScoreTable.exists_weights_of_ok _ _ _ _ _ hscored
  have hdecides := hfindings.decides
  generalize result.run.ruling = s at *
  generalize result.run.assessments = assessments at *
  generalize result.run.context = context at *
  -- The contest is the same with and without the override: only the gates differ.
  have hcontest := ScoreTable.ids_contest weights context j.user s.guidance assessments hdistinct
  rw [ScoreTable.top_ofInstruments weights _ _ _ _ _ hweights hscored] at htop
  obtain ⟨first, hfirst, hid⟩ := Option.map_eq_some_iff.mp htop
  rw [← hid] at hother ⊢
  have hpass : passes s.guidance assessments s.forcedId first = true := List.find?_some hfirst
  have hlifted : passes s.withoutForce.guidance assessments none first = true :=
    (ScoreTable.passes_withoutForce hdecides hover hother).mpr hpass
  have hfewer : ∀ i, passes s.withoutForce.guidance assessments none i = true →
      passes s.guidance assessments s.forcedId i = true := by
    intro i hi
    by_cases hforced : s.forcedId = some i.id
    · rw [hforced]
      exact ScoreTable.passes_of_forced
    · exact (ScoreTable.passes_withoutForce hdecides hover hforced).mp hi
  constructor
  · rw [ScoreTable.pick_of_unforced hweights rfl]
    exact congrArg Except.ok ((ScoreTable.find?_of_fewer hcontest (fun i _ => hfewer i) hfirst).mpr hlifted)
  · refine ⟨_, ScoreTable.pick_of_unforced hweights rfl, ?_⟩
    have hiff := ScoreTable.find?_of_fewer hcontest
      (fun i _ hi => hfewer i (ScoreTable.passes_withoutOverride.mp hi).1) hfirst
    exact hiff.trans (ScoreTable.passes_withoutOverride.trans (and_iff_right hlifted))

end Engine

namespace Sample

/-- The same two cards, the first of which rewards the purchase. -/
def shopper : User := { user with credentials := [{ card "a" with rewards := [("grocery", 4)] }, card "b"] }

def shopped (veto : Double) (rules : List Rule) : Except RunError RunResult × Unit × World :=
  ({ engine with limits := ⟨.float veto, .int 100, .int 500, .int 1000⟩ } : Engine).run purchase shopper Observer.silent ()
    (world rules)

/-- Whom the run would have routed to without its override. -/
def unforced (result : RunResult) : Except TableError (Option String) :=
  ScoreTable.pick shopper.instruments result.run.context shopper result.run.assessments
    result.run.ruling.withoutOverride

end Sample

namespace Engine

/-- The override puts the forced card above the better one, and back under its exclusion without it. -/
theorem shadow_without_override_of_excluded :
    let rules := [Sample.exclusion "b", Sample.forcing "b"]
    ∃ result kept w shadow, Sample.shopped 1 rules = (.ok result, kept, w) ∧
      result.audit.shadow = some shadow ∧ shadow.wouldHave = "a" ∧ result.run.ruling.overridden ≠ [] ∧
        Sample.unforced result = .ok (some "a") := by
  intro rules
  have hok : (Sample.shopped 1 rules).1.toOption.map (fun r =>
      (r.audit.shadow.map fun s => s.wouldHave, r.run.ruling.overridden.isEmpty,
        ((r.run.assessments.get? "a").map fun a => a.veto))) = some (some "a", false, some false) := by
    decide +kernel
  obtain ⟨result, kept, w, hrun, hread⟩ := exists_ok_of_map hok
  simp only [Prod.mk.injEq] at hread
  obtain ⟨hshadow, hoverridden, hveto⟩ := hread
  obtain ⟨shadow, hshadow, hid⟩ := Option.map_eq_some_iff.mp hshadow
  obtain ⟨a, ha, hveto⟩ := Option.map_eq_some_iff.mp hveto
  obtain ⟨-, id, hpick, hiff⟩ :=
    shadow_without_override (p := Sample.policy rules) rfl (by decide) (by decide) hrun hshadow
  rw [hid] at hiff
  refine ⟨result, kept, w, shadow, hrun, hshadow, hid, by simpa using hoverridden, ?_⟩
  rw [Sample.unforced, hpick, hiff.mpr]
  intro a' ha'
  obtain rfl : a = a' := Option.some.inj (ha.symm.trans ha')
  exact hveto

/-- The better card is vetoed, so that without the override no one would have been routed to it. -/
theorem shadow_vetoed :
    let rules := [Sample.forcing "b"]
    (∀ r ∈ rules, r.isValid = true) ∧ (Sample.shopper.instruments.map fun i => i.id).Nodup ∧
      ∃ result kept w shadow, Sample.shopped 0.15 rules = (.ok result, kept, w) ∧
        result.audit.shadow = some shadow ∧ shadow.wouldHave = "a" ∧
          Sample.unforced result = .ok (some "b") := by
  intro rules
  refine ⟨by decide, by decide, ?_⟩
  have hok : (Sample.shopped 0.15 rules).1.toOption.map (fun r =>
      (r.audit.shadow.map fun s => s.wouldHave, (Sample.unforced r).toOption)) = some (some "a", some (some "b")) := by
    decide +kernel
  obtain ⟨result, kept, w, hrun, hread⟩ := exists_ok_of_map hok
  obtain ⟨hshadow, hpick⟩ := Prod.mk.inj hread
  obtain ⟨shadow, hshadow, hid⟩ := Option.map_eq_some_iff.mp hshadow
  refine ⟨result, kept, w, shadow, hrun, hshadow, hid, ?_⟩
  cases hunforced : Sample.unforced result with
  | error error =>
    rw [hunforced] at hpick
    cases hpick
  | ok id =>
    rw [hunforced] at hpick
    exact congrArg Except.ok (Option.some.inj hpick)

end Engine

end WalletRouting
