import WalletRouting.Proofs.Run.Selection

/-! # Where a route leads

Where anyone may be routed to, a route leads to an instrument of the wallet. It leads out of it only under an override,
which is followed whether or not the wallet holds what it names: a rule is checked without the wallet.
-/
namespace WalletRouting
set_option autoImplicit false

namespace Work

theorem mem_of_instrument? {instruments : List Instrument} {id : Option String} {i : Instrument}
    (h : instrument? instruments id = some i) : i ∈ instruments ∧ some i.id = id :=
  ⟨List.mem_of_find?_eq_some h, by simpa using List.find?_some h⟩

theorem instrument?_eq_none_iff {instruments : List Instrument} {id : Option String} :
    instrument? instruments id = none ↔ ∀ i ∈ instruments, some i.id ≠ id := by
  simp [instrument?, List.find?_eq_none]

/-- Ids may be shared, so that it is the first of its name that is found. -/
theorem exists_instrument? {instruments : List Instrument} {i : Instrument} (hi : i ∈ instruments) :
    ∃ first, instrument? instruments (some i.id) = some first := by
  cases hfind : instrument? instruments (some i.id) with
  | some first => exact ⟨first, rfl⟩
  | none => exact absurd rfl (instrument?_eq_none_iff.mp hfind i hi)

end Work

/-- Where a row is open, what is selected is held, unless the override names what no one holds. -/
theorem Findings.destination {j : Job} {r : Run} {table : ScoreTable} (h : Findings j Stage.all.length r)
    (hvalid : ∀ x ∈ j.policy.rules, x.isValid = true) (htable : r.table = some table)
    (hscored : ScoreTable.ofInstruments j.instruments r.context j.user r.ruling.guidance r.assessments
      r.ruling.forcedId = .ok table) {row : ScoreRow} (hrow : row ∈ table.rows) (hopen : row.excluded = false) :
    (∃ i ∈ j.instruments, r.selected = some i ∧ r.selectedId = some i.id) ∨
      r.ruling.hardOverride = true ∧ r.selected = none ∧ ∃ rule f,
        (Ruling.forcingRules j.policy.rules r.context j.instruments j.user j.start.whole).getLast? = some rule ∧
          rule.action.target = some f ∧ f ≠ "" ∧ r.selectedId = some f ∧ ∀ i ∈ j.instruments, i.id ≠ f := by
  obtain ⟨hid, hselected⟩ := h.selected (by decide) table htable
  cases hforced : r.ruling.hardOverride with
  | false =>
    have hranks := ScoreTable.ofInstruments_ranks hscored
    obtain ⟨top, htop⟩ : ∃ top, table.rows.find? (fun row => !row.excluded) = some top := by
      apply Option.isSome_iff_exists.mp
      rw [List.find?_isSome]
      exact ⟨row, hrow, by rw [hopen]; rfl⟩
    obtain ⟨i, hi, htopId, -⟩ := hranks.sound top (List.mem_of_find?_eq_some htop)
    rw [ScoreTable.selected?, hforced, if_neg fun h => Bool.false_ne_true h.1, hranks.top, htop, Option.map_some,
      htopId] at hid
    obtain ⟨first, hfirst⟩ := Work.exists_instrument? hi
    obtain ⟨hmem, hfirstId⟩ := Work.mem_of_instrument? hfirst
    exact Or.inl ⟨first, hmem, by rw [hselected, hid, hfirst], by rw [hid, hfirstId]⟩
  | true =>
    -- The rules are valid whatever the wallet holds, so it remains to look for the forced id in it.
    obtain ⟨rule, f, hlast, htarget, hf, hforcedId, -⟩ := h.exists_forcing hvalid hforced
    rw [ScoreTable.selected?, hforcedId, if_pos ⟨hforced, given_eq_true_iff.mpr ⟨f, rfl, hf⟩⟩] at hid
    rw [hid] at hselected
    cases hfind : Work.instrument? j.instruments (some f) with
    | some i =>
      obtain ⟨hmem, hi⟩ := Work.mem_of_instrument? hfind
      exact Or.inl ⟨i, hmem, by rw [hselected, hfind], by rw [hid, hi]⟩
    | none =>
      refine Or.inr ⟨rfl, by rw [hselected, hfind], rule, f, hlast, htarget, hf, hid, ?_⟩
      intro i hi heq
      exact Work.instrument?_eq_none_iff.mp hfind i hi (congrArg some heq)

namespace Engine

variable {σ : Type}

/-- Where a row is open, a run is routed to an instrument that the user holds, under its id (unless that is empty) and
its name; or the last forcing rule names what the user does not hold, and it is routed there. -/
theorem route_of_candidate {e : Engine} {t : Transaction} {u : User} {observer : Observer σ} {kept kept' : σ}
    {w w' : World} {p : PolicyVersion} {result : RunResult} (hpolicy : w.registry.active = .ok p)
    (hvalid : ∀ r ∈ p.rules, r.isValid = true) (hrun : e.run t u observer kept w = (.ok result, kept', w'))
    (hcandidate : ∃ row ∈ result.audit.rows, row.excluded = false) :
    (∃ i ∈ u.instruments, result.run.selected = some i ∧ result.run.selectedId = some i.id ∧
        result.audit.routeName = i.name ∧ (i.id ≠ "" → result.audit.route = i.id)) ∨
      result.audit.hardOverride = true ∧ ∃ r f,
        (Ruling.forcingRules p.rules result.run.context u.instruments u result.trace.startTime).getLast? = some r ∧
          r.action.target = some f ∧ (∀ i ∈ u.instruments, i.id ≠ f) ∧ result.audit.route = f ∧
            result.audit.routeName = "none" := by
  obtain ⟨j, weights, audited, hactive, rfl, rfl, hstart, -, hfindings, hweights, haudit⟩ := run_ok hrun
  obtain rfl : j.policy = p := Except.ok.inj (hactive.symm.trans hpolicy)
  obtain ⟨table, htable, hscored⟩ := hfindings.exists_table hweights
  obtain ⟨row, hrow, hopen⟩ := hcandidate
  simp only [haudit, auditOf, htable] at hrow
  rw [hstart, haudit]
  rcases hfindings.destination hvalid htable hscored hrow hopen with
    ⟨i, hi, hselected, hid⟩ | ⟨hforced, hselected, rule, f, hlast, htarget, hf, hid, hunheld⟩
  · refine Or.inl ⟨i, hi, hselected, hid, by simp [auditOf, hselected], fun hne => ?_⟩
    simp [auditOf, hid, given_eq_true_iff.mpr ⟨i.id, rfl, hne⟩]
  · refine Or.inr ⟨hforced, rule, f, hlast, htarget, hunheld, ?_, by simp [auditOf, hselected]⟩
    simp [auditOf, hid, given_eq_true_iff.mpr ⟨f, rfl, hf⟩]

theorem route_of_candidate_stays_home :
    ∃ result kept w i, Sample.run [Sample.exclusion "a"] = (.ok result, kept, w) ∧ i ∈ Sample.user.instruments ∧
      result.run.selected = some i ∧ result.audit.routeName = i.name ∧ (i.id ≠ "" → result.audit.route = i.id) := by
  have hok : (Sample.run [Sample.exclusion "a"]).1.toOption.map
      (fun r => (r.audit.hardOverride, r.audit.rows.any fun row => !row.excluded)) = some (false, true) := by
    decide +kernel
  obtain ⟨result, kept, w, hrun, hread⟩ := exists_ok_of_map hok
  obtain ⟨hfree, hany⟩ := Prod.ext_iff.mp hread
  have hcandidate : ∃ row ∈ result.audit.rows, row.excluded = false := by simpa using hany
  rcases route_of_candidate (p := Sample.policy [Sample.exclusion "a"]) rfl (by decide) hrun hcandidate with
    ⟨i, hi, hselected, -, hname, hroute⟩ | ⟨hforced, -⟩
  · exact ⟨result, kept, w, i, hrun, hi, hselected, hname, hroute⟩
  · cases hfree.symm.trans hforced

end Engine

namespace Sample

/-- The one card of this user has an empty id. -/
def unnumbered : User := { user with credentials := [{ card "" with name := "Card" }] }

end Sample

/-- Two runs that have somewhere to go: one is forced to an instrument that the user does not hold, and the other goes to
one that the user holds, but the record shows no route where its id is empty. -/
theorem Engine.route_strays :
    (∃ result kept w, Sample.run [Sample.forcing "ghost"] = (.ok result, kept, w) ∧
        (∀ r ∈ (Sample.policy [Sample.forcing "ghost"]).rules, r.isValid = true) ∧
          (∃ row ∈ result.audit.rows, row.excluded = false) ∧ result.audit.route = "ghost" ∧
            result.audit.routeName = "none" ∧ ∀ i ∈ Sample.user.instruments, i.id ≠ "ghost") ∧
      ∃ result kept w, Sample.engine.run Sample.purchase Sample.unnumbered Observer.silent () (Sample.world []) =
          (.ok result, kept, w) ∧ (∃ row ∈ result.audit.rows, row.excluded = false) ∧ result.audit.route = "none" ∧
            ∀ i ∈ Sample.unnumbered.instruments, i.id ≠ "none" := by
  constructor
  · have hok : (Sample.run [Sample.forcing "ghost"]).1.toOption.map
        (fun r => (r.audit.rows.any fun row => !row.excluded, r.audit.route, r.audit.routeName)) =
          some (true, "ghost", "none") := by
      decide +kernel
    obtain ⟨result, kept, w, hrun, hread⟩ := exists_ok_of_map hok
    simp only [Prod.mk.injEq] at hread
    obtain ⟨hany, hroute, hname⟩ := hread
    exact ⟨result, kept, w, hrun, by decide, by simpa using hany, hroute, hname, by decide⟩
  · have hok : (Sample.engine.run Sample.purchase Sample.unnumbered Observer.silent () (Sample.world [])).1.toOption.map
        (fun r => (r.audit.rows.any fun row => !row.excluded, r.audit.route)) = some (true, "none") := by
      decide +kernel
    obtain ⟨result, kept, w, hrun, hread⟩ := exists_ok_of_map hok
    obtain ⟨hany, hroute⟩ := Prod.ext_iff.mp hread
    exact ⟨result, kept, w, hrun, by simpa using hany, hroute, by decide⟩

end WalletRouting
