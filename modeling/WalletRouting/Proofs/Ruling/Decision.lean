import WalletRouting.Proofs.Ruling.Points

/-! # What a policy decides

`Ruling.Decides` says what a ruling is to a list of encounters without running through them: who is forced, by the last
encounter that forces; who is given and charged how many points; who is excluded, and whose exclusion is overridden.
Every evaluation decides its encounters.
-/
namespace WalletRouting
set_option autoImplicit false

namespace Ruling

open Encounter (lastWhere excludesId)

/-- What a ruling is to the encounters it decides. -/
structure Decides (met : List Encounter) (s : Ruling) : Prop where
  override : s.hardOverride = true ↔ ∃ e ∈ met, e.forces = true
  forced : s.forcedId = (lastWhere Encounter.forces met).bind fun e => e.rule.action.target
  forcing : s.forcingRule = (lastWhere Encounter.forces met).map fun e => ⟨e.rule.id, e.rule.label⟩
  boosted :
    Credits (met.filter Encounter.boosts) (fun e => Action.amountOrZero e.rule.action.boost) s.boosts s.boostRules
  penalized :
    Credits (met.filter Encounter.penalizes) (fun e => Action.amountOrZero e.rule.action.penalty) s.penalties
      s.penaltyRules
  /-- An exclusion is settled one way or the other. -/
  touched : ∀ id, (id ∈ s.excluded.keys ∨ ∃ v ∈ s.overridden, v.credentialId = id) ↔
    ∃ e ∈ met, e.excludes = true ∧ e.id = id
  overridden : ∀ id e, lastWhere (excludesId id) met = some e → s.yields id = true →
    s.overridden.filter (fun v => v.credentialId = id) =
        [⟨id, e.instrument.name, Overridden.exclusionOverride, e.reason, s.forcingLabel, e.rule.id, .warning⟩] ∧
      id ∉ s.excluded.keys ∧ ∀ x ∈ s.exclusions, x.credentialId ≠ id
  excluded : ∀ id e, lastWhere (excludesId id) met = some e → s.yields id = false →
    s.excluded.get? id = some e.reason ∧
      s.exclusions.filter (fun x => x.credentialId = id) =
        [⟨id, e.instrument.name, e.reason, some e.rule.id, stageName⟩] ∧
      ∀ v ∈ s.overridden, v.credentialId ≠ id
  once : s.excluded.keys.Nodup ∧ s.exclusions.map (fun x => x.credentialId) = s.excluded.keys

/-! ## What the tally holds -/

theorem forcing_tallyOf (met : List Encounter) :
    ((tallyOf met).ruling.hardOverride, (tallyOf met).ruling.forcedId, (tallyOf met).ruling.forcingRule) =
      ((lastWhere Encounter.forces met).map fun e =>
        (true, e.rule.action.target, some (⟨e.rule.id, e.rule.label⟩ : ForcingRule))).getD (false, none, none) := by
  have h := foldl_project
    (fun t : Tally => (t.ruling.hardOverride, t.ruling.forcedId, t.ruling.forcingRule)) Encounter.forces
    (fun _ e => (true, e.rule.action.target, some (⟨e.rule.id, e.rule.label⟩ : ForcingRule))) meet
    (by
      intro t e he
      rw [meet_of_forces t he]
      rfl)
    (by
      intro t e he
      obtain ⟨hoverride, hid, hrule⟩ := (meet_leaves t e).forcing he
      rw [hoverride, hid, hrule])
    met ⟨{}, []⟩
  rw [foldl_last] at h
  exact h

theorem boosts_tallyOf (met : List Encounter) :
    ((tallyOf met).ruling.boosts, (tallyOf met).ruling.boostRules) =
      (met.filter Encounter.boosts).foldl (credit fun e => Action.amountOrZero e.rule.action.boost) ([], []) := by
  apply foldl_project (fun t : Tally => (t.ruling.boosts, t.ruling.boostRules)) Encounter.boosts
  · intro t e he
    rw [meet_of_boosts t he]
    rfl
  · intro t e he
    obtain ⟨hamounts, hrules⟩ := (meet_leaves t e).boosts he
    rw [hamounts, hrules]

theorem penalties_tallyOf (met : List Encounter) :
    ((tallyOf met).ruling.penalties, (tallyOf met).ruling.penaltyRules) =
      (met.filter Encounter.penalizes).foldl (credit fun e => Action.amountOrZero e.rule.action.penalty)
        ([], []) := by
  apply foldl_project (fun t : Tally => (t.ruling.penalties, t.ruling.penaltyRules)) Encounter.penalizes
  · intro t e he
    rw [meet_of_penalizes t he]
    rfl
  · intro t e he
    obtain ⟨hamounts, hrules⟩ := (meet_leaves t e).penalties he
    rw [hamounts, hrules]

theorem get?_pending_tallyOf (id : String) (met : List Encounter) :
    (tallyOf met).pending.get? id =
      (lastWhere (excludesId id) met).map fun e => ⟨e.reason, e.rule.id, e.instrument.name⟩ := by
  have h := foldl_project (fun t : Tally => t.pending.get? id) (excludesId id)
    (fun _ e => some ⟨e.reason, e.rule.id, e.instrument.name⟩) meet
    (by
      intro t e he
      simp only [excludesId, Bool.and_eq_true, decide_eq_true_eq] at he
      obtain ⟨hexcludes, rfl⟩ := he
      rw [meet_of_excludes t hexcludes]
      exact Keyed.get?_put_self _ _ _)
    (by
      intro t e he
      cases hexcludes : e.excludes with
      | false => rw [(meet_leaves t e).pending hexcludes]
      | true =>
        simp only [excludesId, hexcludes, Bool.true_and, decide_eq_false_iff_not] at he
        rw [meet_of_excludes t hexcludes]
        exact Keyed.get?_put_of_ne (Ne.symm he) _ _)
    met ⟨{}, []⟩
  rw [foldl_last] at h
  rw [tallyOf, h]
  unfold lastWhere
  cases (met.filter (excludesId id)).getLast? <;> rfl

/-- Nothing is settled while the tally is made, and nothing waits twice. -/
structure Unsettled (t : Tally) : Prop where
  nodup : t.pending.keys.Nodup
  excluded : t.ruling.excluded = []
  exclusions : t.ruling.exclusions = []
  overridden : t.ruling.overridden = []

theorem Unsettled.meet {t : Tally} (h : Unsettled t) (e : Encounter) : Unsettled (meet t e) := by
  obtain ⟨hexcluded, hexclusions, hoverridden⟩ := (meet_leaves t e).settled
  refine ⟨?_, hexcluded.trans h.excluded, hexclusions.trans h.exclusions, hoverridden.trans h.overridden⟩
  cases hexcludes : e.excludes with
  | false =>
    rw [(meet_leaves t e).pending hexcludes]
    exact h.nodup
  | true =>
    rw [meet_of_excludes t hexcludes]
    exact Keyed.nodup_keys_put h.nodup

theorem unsettled_tallyOf (met : List Encounter) : Unsettled (tallyOf met) := by
  have hstart : Unsettled ⟨{}, []⟩ := ⟨List.nodup_nil, rfl, rfl, rfl⟩
  exact List.foldlRecOn met meet hstart fun _ h e _ => h.meet e

/-! ## The decision -/

theorem ofEncounters_eq (met : List Encounter) :
    ofEncounters met = (tallyOf met).ruling.settled (tallyOf met).pending := by
  apply foldl_settle _ _ (unsettled_tallyOf met).nodup
  intro id _ hmem
  rw [(unsettled_tallyOf met).excluded] at hmem
  cases hmem

theorem yields_ofEncounters (met : List Encounter) (id : String) :
    (ofEncounters met).yields id = (tallyOf met).ruling.yields id := by
  rw [ofEncounters_eq]
  rfl

theorem forcing_ofEncounters (met : List Encounter) :
    ((ofEncounters met).hardOverride, (ofEncounters met).forcedId, (ofEncounters met).forcingRule) =
      ((lastWhere Encounter.forces met).map fun e =>
        (true, e.rule.action.target, some (⟨e.rule.id, e.rule.label⟩ : ForcingRule))).getD (false, none, none) := by
  rw [ofEncounters_eq, ← forcing_tallyOf]
  rfl

theorem get?_excluded_ofEncounters (met : List Encounter) (id : String) :
    (ofEncounters met).excluded.get? id =
      if (ofEncounters met).yields id then none else (lastWhere (excludesId id) met).map Encounter.reason := by
  rw [yields_ofEncounters, ofEncounters_eq, get?_excluded_settled (unsettled_tallyOf met).excluded, get?_pending_tallyOf]
  cases lastWhere (excludesId id) met <;> rfl

theorem exclusions_ofEncounters (met : List Encounter) (id : String) :
    (ofEncounters met).exclusions.filter (fun x => x.credentialId = id) =
      if (ofEncounters met).yields id then []
      else ((lastWhere (excludesId id) met).map fun e =>
        ⟨id, e.instrument.name, e.reason, some e.rule.id, stageName⟩).toList := by
  have hunsettled := unsettled_tallyOf met
  rw [yields_ofEncounters, ofEncounters_eq, exclusions_settled hunsettled.exclusions hunsettled.nodup, get?_pending_tallyOf]
  cases lastWhere (excludesId id) met <;> rfl

theorem overridden_ofEncounters (met : List Encounter) (id : String) :
    (ofEncounters met).overridden.filter (fun v => v.credentialId = id) =
      if (ofEncounters met).yields id then
        ((lastWhere (excludesId id) met).map fun e =>
          ⟨id, e.instrument.name, Overridden.exclusionOverride, e.reason, (ofEncounters met).forcingLabel, e.rule.id,
            .warning⟩).toList
      else [] := by
  have hunsettled := unsettled_tallyOf met
  rw [yields_ofEncounters, ofEncounters_eq, overridden_settled hunsettled.overridden hunsettled.nodup, get?_pending_tallyOf]
  cases lastWhere (excludesId id) met <;> rfl

theorem override_ofEncounters {met : List Encounter} :
    (ofEncounters met).hardOverride = true ↔ ∃ e ∈ met, e.forces = true := by
  have h : (ofEncounters met).hardOverride = _ := congrArg Prod.fst (forcing_ofEncounters met)
  rw [h]
  cases hlast : lastWhere Encounter.forces met with
  | none =>
    constructor
    · intro hfalse
      cases hfalse
    · rintro ⟨e, he, hforces⟩
      rw [Encounter.lastWhere_eq_none_iff.mp hlast e he] at hforces
      cases hforces
  | some e => exact ⟨fun _ => ⟨e, Encounter.mem_of_lastWhere hlast⟩, fun _ => rfl⟩

theorem exists_excludes_iff {met : List Encounter} {id : String} :
    (∃ e ∈ met, e.excludes = true ∧ e.id = id) ↔ ∃ e, lastWhere (excludesId id) met = some e := by
  constructor
  · rintro ⟨e, he, hexcludes, rfl⟩
    exact Encounter.exists_lastWhere he (by simp [excludesId, hexcludes])
  · rintro ⟨e, he⟩
    obtain ⟨hmem, hid⟩ := Encounter.mem_of_lastWhere he
    simp only [excludesId, Bool.and_eq_true, decide_eq_true_eq] at hid
    exact ⟨e, hmem, hid⟩

theorem exists_overridden_iff {s : Ruling} {id : String} :
    (∃ v ∈ s.overridden, v.credentialId = id) ↔ s.overridden.filter (fun v => v.credentialId = id) ≠ [] := by
  rw [ne_eq, List.filter_eq_nil_iff]
  simp

theorem touched_ofEncounters {met : List Encounter} {id : String} :
    (id ∈ (ofEncounters met).excluded.keys ∨ ∃ v ∈ (ofEncounters met).overridden, v.credentialId = id) ↔
      ∃ e ∈ met, e.excludes = true ∧ e.id = id := by
  rw [exists_excludes_iff, exists_overridden_iff, overridden_ofEncounters, Keyed.mem_keys_iff,
    get?_excluded_ofEncounters]
  cases lastWhere (excludesId id) met with
  | none => simp
  | some e => cases (ofEncounters met).yields id <;> simp

theorem ofEncounters_decides (met : List Encounter) : Decides met (ofEncounters met) := by
  have hunsettled := unsettled_tallyOf met
  have hforcing := forcing_ofEncounters met
  have hboosts := credits_foldl (fun e => Action.amountOrZero e.rule.action.boost) (met.filter Encounter.boosts)
  have hpenalties :=
    credits_foldl (fun e => Action.amountOrZero e.rule.action.penalty) (met.filter Encounter.penalizes)
  rw [← boosts_tallyOf] at hboosts
  rw [← penalties_tallyOf] at hpenalties
  refine
    { override := override_ofEncounters
      forced := ?_
      forcing := ?_
      boosted := ?_
      penalized := ?_
      touched := fun _ => touched_ofEncounters
      overridden := ?_
      excluded := ?_
      once := ?_ }
  · refine (congrArg (fun p => p.2.1) hforcing).trans ?_
    cases lastWhere Encounter.forces met <;> rfl
  · refine (congrArg (fun p => p.2.2) hforcing).trans ?_
    cases lastWhere Encounter.forces met <;> rfl
  · rw [ofEncounters_eq]
    exact hboosts
  · rw [ofEncounters_eq]
    exact hpenalties
  · intro id e hlast hyields
    have hlist := exclusions_ofEncounters met id
    rw [hyields, if_pos rfl, List.filter_eq_nil_iff] at hlist
    refine ⟨?_, ?_, ?_⟩
    · rw [overridden_ofEncounters, hyields, hlast]
      rfl
    · rw [← Keyed.get?_eq_none_iff, get?_excluded_ofEncounters, hyields, if_pos rfl]
    · intro x hx heq
      exact hlist x hx (decide_eq_true heq)
  · intro id e hlast hyields
    have hlist := overridden_ofEncounters met id
    rw [hyields, if_neg Bool.false_ne_true, List.filter_eq_nil_iff] at hlist
    refine ⟨?_, ?_, ?_⟩
    · rw [get?_excluded_ofEncounters, hyields, hlast]
      rfl
    · rw [exclusions_ofEncounters, hyields, hlast]
      rfl
    · intro v hv heq
      exact hlist v hv (decide_eq_true heq)
  · rw [ofEncounters_eq]
    exact ⟨nodup_excluded_settled hunsettled.excluded hunsettled.nodup,
      keys_excluded_settled hunsettled.excluded hunsettled.exclusions⟩

theorem decides_of_decided {met : List Encounter} {s : Ruling} (h : Decides met s.decided) : Decides met s :=
  ⟨h.override, h.forced, h.forcing, h.boosted, h.penalized, h.touched, h.overridden, h.excluded, h.once⟩

theorem evaluate_decides (rules : List Rule) (t : Transaction) (instruments : List Instrument) (u : User)
    (now : Int) : Decides (encounters rules t instruments u now) (evaluate rules t instruments u now) := by
  apply decides_of_decided
  rw [decided_evaluate]
  exact ofEncounters_decides _

/-- The rules that take part are the enabled ones that have not expired, by priority. The decision is what their
encounters decide, and those that nothing comes of have no part in it. -/
theorem evaluate_decides_encounters (rules : List Rule) (t : Transaction) (instruments : List Instrument) (u : User)
    (now : Int) :
    Rule.InPriorityOrder (rules.filter fun r => r.enabled && !(r.expired now)) (Rule.current now rules) ∧
      Decides (encounters rules t instruments u now) (evaluate rules t instruments u now) ∧
        (evaluate rules t instruments u now).decided =
          ofEncounters ((encounters rules t instruments u now).filter Encounter.counts) := by
  refine ⟨Rule.current_inPriorityOrder now rules, evaluate_decides rules t instruments u now, ?_⟩
  rw [ofEncounters_filter_counts, decided_evaluate]

end Ruling

end WalletRouting
