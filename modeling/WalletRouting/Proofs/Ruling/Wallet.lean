import WalletRouting.Proofs.Ruling.Forcing
import WalletRouting.Proofs.Ruling.Parts
import WalletRouting.Proofs.Run.Selection

/-! # How the wallet is laid out

A wallet is a list, but its order is not meant to say anything. Instruments of distinct ids may be held in any order: each
meets the same rules in the same order, and what is decided of it comes from its own encounters and from the rule that
forces, if there is one. An instrument that is not eligible may be left out, unless it is the one that is forced and gives
its name.
-/
namespace WalletRouting
set_option autoImplicit false

namespace Ruling

open Encounter (lastWhere excludesId)

/-! ## Encounters that each instrument has alike -/

/-- Each instrument has the same encounters in both, and the same rule forces. -/
structure Alike (met met' : List Encounter) : Prop where
  each : ∀ id, met.filter (fun e => e.id = id) = met'.filter fun e => e.id = id
  forcing : (lastWhere Encounter.forces met).map (fun e => e.rule) = (lastWhere Encounter.forces met').map fun e => e.rule

/-- Rulings that differ at most in the order in which they list instruments. -/
structure Rearranged (s s' : Ruling) : Prop where
  override : s.hardOverride = s'.hardOverride
  forced : s.forcedId = s'.forcedId ∧ s.forcedName = s'.forcedName
  forcing : s.forcingRule = s'.forcingRule
  overridden : s.overridden = s'.overridden
  excluded : Keyed.Rearranged s.excluded s'.excluded
  exclusions : s.exclusions.Perm s'.exclusions
  boosts : Keyed.Rearranged s.boosts s'.boosts ∧ Keyed.Rearranged s.boostRules s'.boostRules
  penalties : Keyed.Rearranged s.penalties s'.penalties ∧ Keyed.Rearranged s.penaltyRules s'.penaltyRules
  matched : s.matched = s'.matched
  failed : s.failed = s'.failed

theorem filter_id_filter (kind : Encounter → Bool) (id : String) (met : List Encounter) :
    (met.filter kind).filter (fun e => e.id = id) = (met.filter fun e => e.id = id).filter kind := by
  simp only [List.filter_filter, Bool.and_comm]

theorem Credits.rearranged {giving giving' : List Encounter} {amount : Encounter → Number}
    {amounts amounts' : Keyed Number} {rules rules' : Keyed String} (h : Credits giving amount amounts rules)
    (h' : Credits giving' amount amounts' rules')
    (heach : ∀ id, giving.filter (fun e => e.id = id) = giving'.filter fun e => e.id = id) :
    Keyed.Rearranged amounts amounts' ∧ Keyed.Rearranged rules rules' := by
  have hids (id : String) : id ∈ amounts.keys ↔ id ∈ amounts'.keys := by
    have hgiven (l : List Encounter) : (∃ e ∈ l, e.id = id) ↔ ∃ e, e ∈ l.filter fun e => e.id = id := by simp
    rw [h.ids, h'.ids, hgiven, hgiven, heach]
  constructor
  · refine Keyed.rearranged_of_get? h.distinct h'.distinct ?_
    intro id
    by_cases hid : id ∈ amounts.keys
    · rw [h.sum id hid, h'.sum id ((hids id).mp hid), heach]
    · rw [Keyed.get?_eq_none_iff.mpr hid, Keyed.get?_eq_none_iff.mpr fun hid' => hid ((hids id).mpr hid')]
  · refine Keyed.rearranged_of_get? (h.same ▸ h.distinct) (h'.same ▸ h'.distinct) ?_
    intro id
    rw [h.last, h'.last, lastWhere, lastWhere, heach]

namespace Alike

variable {met met' : List Encounter}

theorem kind (h : Alike met met') (kind : Encounter → Bool) (id : String) :
    (met.filter kind).filter (fun e => e.id = id) = (met'.filter kind).filter fun e => e.id = id := by
  rw [filter_id_filter, filter_id_filter, h.each]

theorem lastWhere_excludesId (h : Alike met met') (id : String) :
    lastWhere (excludesId id) met = lastWhere (excludesId id) met' := by
  have hboth (l : List Encounter) : l.filter (excludesId id) = (l.filter Encounter.excludes).filter fun e => e.id = id := by
    rw [List.filter_filter]
    exact List.filter_congr fun e _ => Bool.and_comm _ _
  rw [lastWhere, lastWhere, hboth, hboth, h.kind]

theorem forcing_eq (h : Alike met met') :
    ((ofEncounters met).hardOverride, (ofEncounters met).forcedId, (ofEncounters met).forcingRule) =
      ((ofEncounters met').hardOverride, (ofEncounters met').forcedId, (ofEncounters met').forcingRule) := by
  let told (r : Rule) : Bool × Option String × Option ForcingRule := (true, r.action.target, some ⟨r.id, r.label⟩)
  have hrule (l : List Encounter) :
      ((ofEncounters l).hardOverride, (ofEncounters l).forcedId, (ofEncounters l).forcingRule) =
        (((lastWhere Encounter.forces l).map fun e => e.rule).map told).getD (false, none, none) := by
    rw [forcing_ofEncounters, Option.map_map]
    rfl
  rw [hrule, hrule, h.forcing]

theorem yields_eq (h : Alike met met') (id : String) : (ofEncounters met).yields id = (ofEncounters met').yields id := by
  obtain ⟨hoverride, hrest⟩ := Prod.ext_iff.mp h.forcing_eq
  rw [yields, yields, show (ofEncounters met).hardOverride = _ from hoverride,
    show (ofEncounters met).forcedId = _ from congrArg Prod.fst hrest]

theorem excluded (h : Alike met met') : Keyed.Rearranged (ofEncounters met).excluded (ofEncounters met').excluded := by
  refine Keyed.rearranged_of_get? (ofEncounters_decides met).once.1 (ofEncounters_decides met').once.1 ?_
  intro id
  rw [get?_excluded_ofEncounters, get?_excluded_ofEncounters, h.yields_eq, h.lastWhere_excludesId]

theorem exclusions (h : Alike met met') : (ofEncounters met).exclusions.Perm (ofEncounters met').exclusions := by
  refine Keyed.perm_of_filter_eq (fun x : Exclusion => x.credentialId) ?_
  intro id
  rw [exclusions_ofEncounters, exclusions_ofEncounters, h.yields_eq, h.lastWhere_excludesId]

/-- Only the forced instrument can be listed, so there is no order in which the lists could differ. -/
theorem overridden (h : Alike met met') : (ofEncounters met).overridden = (ofEncounters met').overridden := by
  obtain ⟨-, hforced⟩ := Prod.ext_iff.mp h.forcing_eq
  obtain ⟨hid, hrule⟩ := Prod.ext_iff.mp hforced
  have hlabel : (ofEncounters met).forcingLabel = (ofEncounters met').forcingLabel := by
    rw [forcingLabel, forcingLabel, show (ofEncounters met).forcingRule = _ from hrule]
  have hall (l : List Encounter) : (ofEncounters l).overridden =
      (ofEncounters l).overridden.filter fun v => some v.credentialId = (ofEncounters l).forcedId := by
    refine (List.filter_eq_self.mpr ?_).symm
    intro v hv
    have hyields := (ofEncounters_decides l).yields_of_overridden hv
    simp only [yields, Bool.and_eq_true, decide_eq_true_eq] at hyields
    exact decide_eq_true hyields.2.symm
  rw [hall met, hall met', show (ofEncounters met).forcedId = _ from hid]
  cases (ofEncounters met').forcedId with
  | none => simp
  | some f =>
    simp only [Option.some.injEq]
    rw [overridden_ofEncounters, overridden_ofEncounters, h.yields_eq, h.lastWhere_excludesId, hlabel]

theorem rearranged (h : Alike met met') {s s' : Ruling} (hs : s.decided = ofEncounters met)
    (hs' : s'.decided = ofEncounters met') (hname : s.forcedName = s'.forcedName) (hmatched : s.matched = s'.matched)
    (hfailed : s.failed = s'.failed) : Rearranged s s' := by
  have hdecides := ofEncounters_decides met
  have hdecides' := ofEncounters_decides met'
  obtain ⟨hoverride, hforced⟩ := Prod.ext_iff.mp h.forcing_eq
  obtain ⟨hid, hrule⟩ := Prod.ext_iff.mp hforced
  have hexcluded := h.excluded
  have hexclusions := h.exclusions
  have hoverridden := h.overridden
  have hboosts := hdecides.boosted.rearranged hdecides'.boosted (h.kind Encounter.boosts)
  have hpenalties := hdecides.penalized.rearranged hdecides'.penalized (h.kind Encounter.penalizes)
  rw [← hs, ← hs'] at hoverride hid hrule hexcluded hexclusions hoverridden hboosts hpenalties
  exact
    { override := hoverride
      forced := ⟨hid, hname⟩
      forcing := hrule
      overridden := hoverridden
      excluded := hexcluded
      exclusions := hexclusions
      boosts := hboosts
      penalties := hpenalties
      matched := hmatched
      failed := hfailed }

end Alike

/-! ## What a wallet has to do with it -/

section Wallet

variable {rules : List Rule} {t : Transaction} {instruments instruments' : List Instrument} {u : User} {now : Int}

theorem encounters_at (id : String) :
    (encounters rules t instruments u now).filter (fun e => e.id = id) =
      encounters rules t (instruments.filter fun i => i.id = id) u now := by
  rw [encounters, encounters, List.filter_flatMap]
  congr 1
  funext r
  rw [List.filter_map, List.filter_filter, List.filter_filter]
  congr 1
  exact List.filter_congr fun i _ => Bool.and_comm _ _

theorem filter_id_of_perm (hperm : instruments.Perm instruments') (hdistinct : (instruments.map fun i => i.id).Nodup)
    (id : String) : (instruments.filter fun i => i.id = id) = instruments'.filter fun i => i.id = id := by
  have hlength : (instruments.filter fun i => i.id = id).length ≤ 1 := by
    have hcount := List.nodup_iff_count_le_one.mp hdistinct id
    rw [List.count_eq_countP, List.countP_map, List.countP_eq_length_filter] at hcount
    simpa only [Function.comp_def, beq_eq_decide] using hcount
  have hsame := hperm.filter fun i => i.id = id
  cases hone : instruments.filter fun i => i.id = id with
  | nil =>
    rw [hone] at hsame
    exact hsame.nil_eq
  | cons i rest =>
    obtain rfl : rest = [] := by
      rw [hone] at hlength
      exact List.length_eq_zero_iff.mp (Nat.le_zero.mp (Nat.le_of_succ_le_succ hlength))
    rw [hone] at hsame
    exact List.singleton_perm.mp hsame

theorem isEmpty_hits_of_perm (hperm : instruments.Perm instruments') (r : Rule) :
    (hits r t u instruments).isEmpty = (hits r t u instruments').isEmpty :=
  (hperm.filter _).isEmpty_eq

theorem outcome_of_isEmpty_hits (h : ∀ r, (hits r t u instruments).isEmpty = (hits r t u instruments').isEmpty) :
    outcome t u instruments now = outcome t u instruments' now := by
  funext r
  rw [outcome, outcome, h]

theorem alike_of_perm (hperm : instruments.Perm instruments') (hdistinct : (instruments.map fun i => i.id).Nodup) :
    Alike (encounters rules t instruments u now) (encounters rules t instruments' u now) := by
  constructor
  · intro id
    rw [encounters_at, encounters_at, filter_id_of_perm hperm hdistinct]
  · rw [lastWhere_forces_encounters, lastWhere_forces_encounters, forcingRules, forcingRules]
    simp only [isEmpty_hits_of_perm hperm]

theorem get?_namesOf (id : String) :
    (namesOf instruments).get? id = (instruments.filter fun i => i.id = id).getLast?.map fun i => i.name := by
  rw [namesOf, Keyed.get?_ofPairs, List.filter_map, List.getLast?_map, Option.map_map]
  rfl

theorem told_of_outcome (rules : List Rule) (h : outcome t u instruments now = outcome t u instruments' now) :
    (evaluate rules t instruments u now).matched = (evaluate rules t instruments' u now).matched ∧
      (evaluate rules t instruments u now).failed = (evaluate rules t instruments' u now).failed := by
  have htold := evaluate_tells rules t instruments u now
  have htold' := evaluate_tells rules t instruments' u now
  rw [htold.matched, htold'.matched, htold.failed, htold'.failed, h]
  exact ⟨rfl, rfl⟩

theorem rearranged_of_perm (hperm : instruments.Perm instruments')
    (hdistinct : (instruments.map fun i => i.id).Nodup) :
    Rearranged (evaluate rules t instruments u now) (evaluate rules t instruments' u now) := by
  have halike : Alike (encounters rules t instruments u now) (encounters rules t instruments' u now) :=
    alike_of_perm hperm hdistinct
  obtain ⟨hmatched, hfailed⟩ := told_of_outcome rules (t := t) (u := u)
    (outcome_of_isEmpty_hits (isEmpty_hits_of_perm hperm))
  refine halike.rearranged (decided_evaluate _ _ _ _ _) (decided_evaluate _ _ _ _ _) ?_ hmatched hfailed
  have hid := congrArg (fun p => p.2.1) halike.forcing_eq
  rw [evaluate_names, evaluate_names, forcedId_evaluate, forcedId_evaluate]
  change (ofEncounters _).forcedId = (ofEncounters _).forcedId at hid
  rw [hid]
  congr 1
  funext id
  rw [get?_namesOf, get?_namesOf, filter_id_of_perm hperm hdistinct]

theorem hits_filter {keep : Instrument → Bool} (hdrop : ∀ i ∈ instruments, keep i = false → i.eligible = false)
    (r : Rule) : hits r t u (instruments.filter keep) = hits r t u instruments := by
  rw [hits, hits, List.filter_filter]
  apply List.filter_congr
  intro i hi
  cases hkeep : keep i with
  | true => exact Bool.and_true _
  | false => simp [hdrop i hi hkeep]

/-- Who is neither eligible nor forced might as well not be there. -/
theorem evaluate_filter {keep : Instrument → Bool}
    (hdrop : ∀ i ∈ instruments, keep i = false →
      i.eligible = false ∧ (evaluate rules t instruments u now).forcedId ≠ some i.id) :
    evaluate rules t (instruments.filter keep) u now = evaluate rules t instruments u now := by
  have hhits (r : Rule) : hits r t u (instruments.filter keep) = hits r t u instruments :=
    hits_filter (fun i hi hkeep => (hdrop i hi hkeep).1) r
  have hmet : encounters rules t (instruments.filter keep) u now = encounters rules t instruments u now := by
    change ((Rule.current now rules).flatMap fun r => (hits r t u (instruments.filter keep)).map (Encounter.mk r)) = _
    simp only [hhits]
    rfl
  obtain ⟨hmatched, hfailed⟩ := told_of_outcome rules (t := t) (u := u)
    (outcome_of_isEmpty_hits fun r => congrArg List.isEmpty (hhits r))
  refine eq_of_parts ?_ ?_ hmatched hfailed
  · rw [decided_evaluate, decided_evaluate, hmet]
  · rw [evaluate_names, evaluate_names, forcedId_evaluate, hmet, ← forcedId_evaluate]
    cases hforced : (evaluate rules t instruments u now).forcedId with
    | none => rfl
    | some f =>
      rw [Option.bind_some, Option.bind_some, get?_namesOf, get?_namesOf, List.filter_filter]
      congr 2
      apply List.filter_congr
      intro i hi
      cases hkeep : keep i with
      | true => exact Bool.and_true _
      | false =>
        have hne := (hdrop i hi hkeep).2
        rw [hforced] at hne
        simp only [Bool.and_false]
        exact (decide_eq_false fun hid => hne (congrArg some hid.symm)).symm

end Wallet

/-- A ruling does not depend on the order in which a wallet holds instruments of distinct ids, but for the order in which
it lists them; and not at all on instruments that are neither eligible nor forced. -/
theorem evaluate_of_wallet (rules : List Rule) (t : Transaction) (instruments : List Instrument) (u : User) (now : Int) :
    (∀ instruments' : List Instrument, instruments.Perm instruments' → (instruments.map fun i => i.id).Nodup →
      Rearranged (evaluate rules t instruments u now) (evaluate rules t instruments' u now)) ∧
      ∀ keep : Instrument → Bool,
        (∀ i ∈ instruments, keep i = false →
          i.eligible = false ∧ (evaluate rules t instruments u now).forcedId ≠ some i.id) →
          evaluate rules t (instruments.filter keep) u now = evaluate rules t instruments u now :=
  ⟨fun _ hperm hdistinct => rearranged_of_perm hperm hdistinct, fun _ hdrop => evaluate_filter hdrop⟩

theorem evaluate_of_wallet_reversed :
    let rules := [{ Sample.exclusion "" with condition := (Sample.forcing "b").condition }, Sample.forcing "b"]
    let cards := [Sample.card "a", Sample.card "b", Sample.card "c", { Sample.card "d" with eligible := false }]
    let wallet := cards.map Instrument.card
    let evaluated := fun instruments => evaluate rules Sample.purchase instruments Sample.user 0
    wallet.Perm wallet.reverse ∧ (wallet.map fun i => i.id).Nodup ∧
      Rearranged (evaluated wallet) (evaluated wallet.reverse) ∧
        (evaluated wallet).excluded.keys = ["a", "c"] ∧ (evaluated wallet.reverse).excluded.keys = ["c", "a"] ∧
          evaluated (wallet.filter fun i => i.eligible) = evaluated wallet := by
  intro rules cards wallet evaluated
  have hlaid := evaluate_of_wallet rules Sample.purchase wallet Sample.user 0
  have hperm : wallet.Perm wallet.reverse := (List.reverse_perm wallet).symm
  have hdistinct : (wallet.map fun i => i.id).Nodup := by decide
  have hforced : (evaluated wallet).forcedId = some "b" := by decide +kernel
  refine ⟨hperm, hdistinct, hlaid.1 _ hperm hdistinct, by decide +kernel, by decide +kernel, hlaid.2 _ ?_⟩
  intro i hi hineligible
  refine ⟨hineligible, ?_⟩
  change (evaluated wallet).forcedId ≠ _
  rw [hforced]
  -- Only the last card is not eligible, and it is not the one that is forced.
  have hids : ∀ i ∈ wallet, i.eligible = false → i.id ≠ "b" := by decide
  intro hid
  exact hids i hi hineligible (Option.some.inj hid).symm

end Ruling

end WalletRouting
