import WalletRouting.Proofs.Ruling.Forcing
import WalletRouting.Proofs.Run.Findings
import WalletRouting.Proofs.Score.Ranking

/-! # Which route a run takes

Without an override a run takes the best of the instruments that nothing bars; under one it takes the instrument that
the last forcing rule names, whatever else is said of it. Both are read off the records of a run that returned.
-/
namespace WalletRouting
set_option autoImplicit false

namespace Findings

variable {j : Job} {r : Run}

theorem decides (h : Findings j Stage.all.length r) :
    Ruling.Decides (Ruling.encounters j.policy.rules r.context j.instruments j.user j.start.whole) r.ruling := by
  rw [h.ruling (by decide)]
  exact Ruling.evaluate_decides _ _ _ _ _

/-- With valid rules and no override, the gates are closed to those who are barred, and to no one else. -/
theorem gate?_isSome_iff (h : Findings j Stage.all.length r) (hvalid : ∀ x ∈ j.policy.rules, x.isValid = true)
    (hfree : r.ruling.hardOverride = false) {i : Instrument} :
    (ScoreTable.gate? r.ruling.guidance r.assessments r.ruling.forcedId i).isSome = true ↔
      ScoreTable.Barred r.ruling.exclusions r.assessments i := by
  have hreason : r.ruling.guidance.reason i.id = "" ↔ i.id ∉ r.ruling.excluded.keys := by
    change (r.ruling.excluded.get? i.id).getD "" = "" ↔ _
    rw [← Keyed.get?_eq_none_iff]
    cases hget : r.ruling.excluded.get? i.id with
    | none => simp
    | some reason =>
      rw [h.ruling (by decide)] at hget
      simpa using Ruling.reason_ne_empty_of_valid hvalid hget
  have hopen : r.ruling.guidance.hardOverride = false := hfree
  rw [← Option.ne_none_iff_isSome, ne_eq, ScoreTable.gate?_eq_none_iff,
    (h.decides.forcedId_of_override_eq_false hfree).1, hopen, hreason, ScoreTable.Barred, h.decides.mem_exclusions_iff]
  simp only [reduceCtorEq, false_or, Classical.not_and_iff_not_or_not, Classical.not_not, Bool.not_eq_true,
    Classical.not_forall, Bool.false_eq_true, imp_false, Bool.not_eq_false, exists_prop]

end Findings

theorem Work.instrument?_of_mem {instruments : List Instrument} (hdistinct : (instruments.map fun i => i.id).Nodup)
    {i : Instrument} (hi : i ∈ instruments) : instrument? instruments (some i.id) = some i := by
  unfold instrument?
  induction instruments with
  | nil => cases hi
  | cons first rest ih =>
    obtain ⟨hfirst, hrest⟩ := List.nodup_cons.mp hdistinct
    rcases List.mem_cons.mp hi with rfl | hi
    · simp
    · have hne : first.id ≠ i.id := fun heq => hfirst (List.mem_map.mpr ⟨i, hi, heq.symm⟩)
      rw [List.find?_cons_of_neg (by simpa using hne)]
      exact ih hrest hi

theorem Findings.exists_forcing {j : Job} {r : Run} (h : Findings j Stage.all.length r)
    (hvalid : ∀ x ∈ j.policy.rules, x.isValid = true) (hforced : r.ruling.hardOverride = true) :
    ∃ rule f, (Ruling.forcingRules j.policy.rules r.context j.instruments j.user j.start.whole).getLast? = some rule ∧
      rule.action.target = some f ∧ f ≠ "" ∧ r.ruling.forcedId = some f ∧
        r.ruling.forcingRule = some ⟨rule.id, rule.label⟩ := by
  obtain ⟨e, he, hforces⟩ := h.decides.override.mp hforced
  obtain ⟨last, hlast⟩ := Encounter.exists_lastWhere he hforces
  obtain ⟨hmem, hforces⟩ := Encounter.mem_of_lastWhere hlast
  have hrule : last.rule ∈ j.policy.rules := (Rule.mem_current.mp (Ruling.mem_encounters.mp hmem).1).1
  simp only [Encounter.forces, Bool.and_eq_true, decide_eq_true_eq] at hforces
  obtain ⟨f, htarget, hf⟩ := Rule.target_of_force (hvalid last.rule hrule) hforces.2
  refine ⟨last.rule, f, ?_, htarget, hf, ?_, ?_⟩
  · rw [← Ruling.lastWhere_forces_encounters, hlast]
    rfl
  · rw [h.decides.forced, hlast]
    exact htarget
  · rw [h.decides.forcing, hlast]
    rfl

theorem Findings.selected_cases {j : Job} {r : Run} {table : ScoreTable} (h : Findings j Stage.all.length r)
    (hvalid : ∀ x ∈ j.policy.rules, x.isValid = true) (hfree : r.ruling.hardOverride = false)
    (hdistinct : (j.instruments.map fun i => i.id).Nodup) (htable : r.table = some table)
    (hscored : ScoreTable.ofInstruments j.instruments r.context j.user r.ruling.guidance r.assessments
      r.ruling.forcedId = .ok table) :
    (r.selected = none ∧ r.selectedId = none ∧
        ∀ i ∈ j.instruments, ScoreTable.Barred r.ruling.exclusions r.assessments i) ∨
      ∃ i row, r.selected = some i ∧ r.selectedId = some i.id ∧ i ∈ j.instruments ∧
        ¬ScoreTable.Barred r.ruling.exclusions r.assessments i ∧
          table.rows.find? (fun row => !row.excluded) = some row ∧ row.credentialId = i.id ∧
            ∀ other ∈ table.rows, other.excluded = false → ¬row.final < other.final := by
  have hranks := ScoreTable.ofInstruments_ranks hscored
  have hgate {i : Instrument} := h.gate?_isSome_iff hvalid hfree (i := i)
  obtain ⟨hid, hselected⟩ := h.selected (by decide) table htable
  have hid : r.selectedId = table.top.map fun row => row.credentialId := by
    rw [hid, ScoreTable.selected?, hfree, if_neg fun h => Bool.false_ne_true h.1]
  cases htop : table.rows.find? fun row => !row.excluded with
  | none =>
    rw [hranks.top, htop, Option.map_none] at hid
    rw [hid] at hselected
    refine Or.inl ⟨hselected.trans (by simp [Work.instrument?]), hid, ?_⟩
    intro i hi
    obtain ⟨row, hrow, -, hexcluded⟩ := hranks.complete i hi
    have hall := List.find?_eq_none.mp htop row hrow
    rw [← hgate, ← hexcluded]
    simpa using hall
  | some row =>
    rw [hranks.top, htop, Option.map_some] at hid
    rw [hid] at hselected
    obtain ⟨hmem, hopen, hbest⟩ := ScoreTable.best_of_find? hranks.descending htop
    obtain ⟨i, hi, hrow, hexcluded⟩ := hranks.sound row hmem
    rw [hrow, Work.instrument?_of_mem hdistinct hi] at hselected
    rw [hrow] at hid
    refine Or.inr ⟨i, row, hselected, hid, hi, ?_, rfl, hrow, hbest⟩
    rw [← hgate, ← hexcluded, hopen]
    exact Bool.false_ne_true

/-! ## A small world

Two cards of no account, `a` and `b`, and a policy that is opened with the rules it is to hold.
-/
namespace Sample

def card (id : String) : Credential :=
  { id := id, name := id, dpan := "**** 0000", network := .visa, limit := 0, balance := 0, utilization := 0, apr := 0,
    foreignFee := 0, blockedMccs := [], rewards := [], eligible := true, cashbackRate := 0, signupBonus := none,
    metadata := [], kind := .credit }

def user : User := ⟨"user", "User", [card "a", card "b"], [], 0, 14, Weights.balanced, .medium, none⟩

def purchase : Transaction := ⟨0, "USD", "Shop", 5411, "grocery", "US", .browser, true, [], "", none⟩

def exclusion (id : String) : Rule :=
  Baseline.rule "exclusion" "Exclusion" .hard 1 (Baseline.compare "id" .eq (.text id)) (Baseline.exclude "Not this one")

def forcing (id : String) : Rule :=
  Baseline.rule "forcing" "Forcing" .hard 2 (Baseline.compare "mcc" .eq (.int 5411))
    ⟨.force, some id, none, .null, none, none, "This one"⟩

def policy (rules : List Rule) : PolicyVersion := ⟨"1.0.0", 0, "", rules, "", false, none⟩

def world (rules : List Rule) : World :=
  World.opened ⟨some [policy rules], .null, .null⟩ (Clock.steady (.int 0) (.int 1))

def engine : Engine :=
  { paced := false, perturbation := .float 0.1, limits := ⟨.int 1, .int 100, .int 500, .int 1000⟩, seed := 1 }

/-- What a run in this world comes to. -/
def run (rules : List Rule) : Except RunError RunResult × Unit × World :=
  engine.run purchase user Observer.silent () (world rules)

end Sample

namespace Engine

variable {σ : Type}

/-- Under an override the route is what the last forcing rule names. Nothing excludes it, at most one exclusion was
overridden, and it is told which rule forced it. -/
theorem route_under_override {e : Engine} {t : Transaction} {u : User} {observer : Observer σ} {kept kept' : σ}
    {w w' : World} {p : PolicyVersion} {result : RunResult} (hpolicy : w.registry.active = .ok p)
    (hvalid : ∀ r ∈ p.rules, r.isValid = true) (hrun : e.run t u observer kept w = (.ok result, kept', w'))
    (hforced : result.audit.hardOverride = true) :
    (∃ now, result.run.context =
        { t with correlationId := result.trace.correlationId, timestamp := some now }) ∧
      ∃ r f, (Ruling.forcingRules p.rules result.run.context u.instruments u result.trace.startTime).getLast? = some r ∧
        r.action.target = some f ∧ result.audit.route = f ∧ (∀ x ∈ result.audit.exclusions, x.credentialId ≠ f) ∧
          (∀ row ∈ result.audit.rows, row.excluded = true → row.credentialId ≠ f) ∧
            result.audit.overridden.length ≤ 1 ∧ (∀ v ∈ result.audit.overridden, v.credentialId = f) ∧
              result.audit.selection = .forced r.id r.label := by
  obtain ⟨j, weights, audited, hactive, rfl, rfl, hstart, hid, hfindings, hweights, haudit⟩ := run_ok hrun
  obtain rfl : j.policy = p := Except.ok.inj (hactive.symm.trans hpolicy)
  obtain ⟨table, htable, hscored⟩ := hfindings.exists_table hweights
  have hruling : result.run.ruling.hardOverride = true := by
    rw [haudit] at hforced
    exact hforced
  obtain ⟨rule, f, hlast, htarget, hf, hforcedId, hforcing⟩ := hfindings.exists_forcing hvalid hruling
  obtain ⟨now, hcontext⟩ := hfindings.context (by decide)
  obtain ⟨hselected, -⟩ := hfindings.selected (by decide) table htable
  have hgiven : given (some f) = true := given_eq_true_iff.mpr ⟨f, rfl, hf⟩
  have hyields : result.run.ruling.yields f = true := by
    rw [Ruling.yields, hruling, hforcedId]
    exact decide_eq_true rfl
  rw [ScoreTable.selected?, if_pos ⟨hruling, hforcedId ▸ hgiven⟩, hforcedId] at hselected
  rw [hstart, hid, haudit]
  refine ⟨⟨now, hcontext⟩, rule, f, hlast, htarget, ?_, ?_, ?_, hfindings.decides.overridden_length_le_one hforcedId,
    ?_, ?_⟩
  · simp [auditOf, hselected, hgiven]
  · intro x hx heq
    have hmem := hfindings.decides.mem_exclusions_iff.mp ⟨x, hx, heq⟩
    exact hfindings.decides.not_excluded_of_yields hyields hmem
  · intro row hrow hexcluded heq
    simp only [auditOf, htable] at hrow
    obtain ⟨i, -, hi, hgate⟩ := (ScoreTable.ofInstruments_ranks hscored).sound row hrow
    have hopen :
        ScoreTable.gate? result.run.ruling.guidance result.run.assessments result.run.ruling.forcedId i = none :=
      ScoreTable.gate?_eq_none_iff.mpr (Or.inl (by rw [hforcedId, ← hi, heq]))
    rw [hopen, hexcluded] at hgate
    cases hgate
  · intro v hv
    have hv := hfindings.decides.yields_of_overridden hv
    simp only [Ruling.yields, hforcedId, Bool.and_eq_true, decide_eq_true_eq, Option.some.injEq] at hv
    exact hv.2.symm
  · simp [auditOf, selectionOf, hforcing, hruling]

theorem route_under_override_spares_forced :
    ∃ result kept w, Sample.run [Sample.exclusion "b", Sample.forcing "b"] = (.ok result, kept, w) ∧
      result.audit.route = "b" ∧ ∀ x ∈ result.audit.exclusions, x.credentialId ≠ "b" := by
  have hok : (Sample.run [Sample.exclusion "b", Sample.forcing "b"]).1.toOption.map
      (fun r => (r.audit.hardOverride, r.audit.route)) = some (true, "b") := by
    decide +kernel
  obtain ⟨result, kept, w, hrun, hread⟩ := exists_ok_of_map hok
  obtain ⟨hforced, hroute⟩ := Prod.mk.inj hread
  obtain ⟨-, _, f, -, -, hf, hexclusions, -⟩ := route_under_override
    (p := Sample.policy [Sample.exclusion "b", Sample.forcing "b"]) rfl (by decide) hrun hforced
  obtain rfl : f = "b" := hf.symm.trans hroute
  exact ⟨result, kept, w, hrun, hroute, hexclusions⟩

end Engine

end WalletRouting
