import WalletRouting.Proofs.Registry.Editing
import WalletRouting.Proofs.Run.Signing

/-! # Edits, refused and carried out

Wherever operations lead from the baseline versions, rules are well-formed. An edit that is refused does nothing at all.
-/
namespace WalletRouting
set_option autoImplicit false

theorem Baseline.wellFormed_rules : Rule.WellFormed Baseline.rules :=
  ⟨by decide, by decide +kernel⟩

theorem Rule.WellFormed.sublist {rules kept : List Rule} (h : Rule.WellFormed rules) (hkept : kept.Sublist rules) :
    Rule.WellFormed kept :=
  ⟨h.distinct.sublist (hkept.map _), fun r hr => h.valid r (hkept.subset hr)⟩

theorem Rule.wellFormed_lasting : Registry.Lasting fun p => Rule.WellFormed p.rules where
  baseline now p hp := by
    obtain ⟨release, _, rfl⟩ := List.mem_map.mp hp
    exact Baseline.wellFormed_rules.sublist (List.take_sublist _ _)
  edited hoffered hp hrules := hoffered.wellFormed hp hrules
  marked mark hp := by
    unfold PolicyVersion.markCached
    split <;> exact hp

namespace World

/-- Wherever operations lead from the baseline versions, the rules of every version have distinct ids and are valid,
that is, they have all that is asked of a rule. -/
theorem rules_wellFormed {current defaultVersion : Value} {c : Clock} {w : World}
    (h : (World.opened ⟨none, current, defaultVersion⟩ c).Reaches w) :
    ∀ p ∈ w.registry.versions, (p.rules.map Rule.id).Nodup ∧ ∀ r ∈ p.rules, r.isValid = true ∧ r.Complete := by
  have hopened : Registry.Throughout (fun p => Rule.WellFormed p.rules)
      (World.opened ⟨none, current, defaultVersion⟩ c).registry := by
    refine Registry.Throughout.load Rule.wellFormed_lasting (o := ⟨none, current, defaultVersion⟩) ?_ c
    intro given hgiven
    cases hgiven
  intro p hp
  have hrules := (hopened.reaches Rule.wellFormed_lasting h).versions p hp
  exact ⟨hrules.distinct, fun r hr => ⟨hrules.valid r hr, Rule.isValid_iff.mp (hrules.valid r hr)⟩⟩

/-- A rule is renamed, another takes the name it had, and the two are moved to the front. -/
theorem rules_wellFormed_of_swap :
    ∃ p ∈ (Operation.applyAll
        [.update "rule_high_apr" [("id", .text "rule_apr")], .update "rule_gas_boost" [("id", .text "rule_high_apr")],
          .reorder ["rule_high_apr", "rule_apr", "rule_high_apr"]] Sample.baseline).registry.versions,
      (p.rules.map Rule.id).take 2 = ["rule_high_apr", "rule_apr"] ∧ (p.rules.map Rule.id).Nodup ∧
        ∀ r ∈ p.rules, r.isValid = true ∧ r.Complete := by
  have hmoved : (Operation.applyAll
      [.update "rule_high_apr" [("id", .text "rule_apr")], .update "rule_gas_boost" [("id", .text "rule_high_apr")],
        .reorder ["rule_high_apr", "rule_apr", "rule_high_apr"]] Sample.baseline).registry.versions.getLast?.map
      (fun p => (p.rules.map Rule.id).take 2) = some ["rule_high_apr", "rule_apr"] := by
    decide +kernel
  obtain ⟨p, hp, hfirst⟩ := Option.map_eq_some_iff.mp hmoved
  have hp := List.mem_of_getLast? hp
  exact ⟨p, hp, hfirst, rules_wellFormed (reaches_applyAll _ (Reaches.refl Sample.baseline)) p hp⟩

end World

/-- Whether a request is refused for what it asks: a rule that is invalid or whose id is taken, a rule or a version that
is not there, or updates that do not read as a rule. -/
def RegistryError.isRefusal : RegistryError → Bool
  | .invalidRule .. | .duplicateRule .. | .unknownRule .. | .unknownVersion _ | .unknownPin _ | .malformedRule _ => true
  | .unwritable _ => false

namespace Operation

/-- The operations that edit rules, pin a version or mark one as cached. -/
def isEdit : Operation → Bool
  | .add _ | .update .. | .remove _ | .reorder _ | .pin _ | .cache .. => true
  | .fetch .. | .reset | .run .. => false

variable {w : World} {e : OperationError}

theorem edited_error {done : Except RegistryError (PolicyVersion × Registry)} (h : (w.edited done).1 = .error e) :
    (∃ x, e = .registry x ∧ (w.edited done).2 = w) ∨ ∃ x, e = .registry (.unwritable x) := by
  unfold World.edited at h ⊢
  cases done with
  | error error =>
    cases h
    exact Or.inl ⟨error, rfl, rfl⟩
  | ok made =>
    dsimp only at h ⊢
    split at h
    · next x _ =>
      cases h
      exact Or.inr ⟨x, rfl⟩
    · cases h

theorem changed_error {done : Except RegistryError Registry} (h : (w.changed done).1 = .error e) :
    ∃ x, e = .registry x ∧ (w.changed done).2 = w := by
  unfold World.changed at h ⊢
  cases done with
  | error error =>
    cases h
    exact ⟨error, rfl, rfl⟩
  | ok r => cases h

theorem unchanged_or_unwritable {o : Operation} (hedit : o.isEdit = true) (h : (o.apply w).1 = .error e) :
    (∃ x, e = .registry x ∧ (o.apply w).2 = w) ∨ ∃ x, e = .registry (.unwritable x) := by
  cases o with
  | add rule => exact edited_error h
  | update id updates => exact edited_error h
  | remove id => exact edited_error h
  | reorder ids => exact edited_error h
  | pin version => exact Or.inl (changed_error h)
  | cache version mark => exact Or.inl (changed_error h)
  | fetch | reset | run => cases hedit

/-- An edit fails with an error of the registry. If it is refused for what it asks, then nothing at all is changed. -/
theorem refused_changes_nothing {o : Operation} (hedit : o.isEdit = true) (h : (o.apply w).1 = .error e) :
    ∃ x, e = .registry x ∧ (x.isRefusal = true → (o.apply w).2 = w) := by
  rcases unchanged_or_unwritable hedit h with ⟨x, rfl, hsame⟩ | ⟨x, rfl⟩
  · exact ⟨x, rfl, fun _ => hsame⟩
  · refine ⟨.unwritable x, rfl, ?_⟩
    rintro ⟨⟩

/-- A rule cannot take the name of another. -/
theorem refused_changes_nothing_of_rename :
    ((update "rule_high_apr" [("id", .text "rule_gas_boost")]).apply Sample.baseline).1 =
        .error (.registry (.duplicateRule "rule_gas_boost" "2.0.0")) ∧
      ((update "rule_high_apr" [("id", .text "rule_gas_boost")]).apply Sample.baseline).2 = Sample.baseline := by
  have hduplicate : ((update "rule_high_apr" [("id", .text "rule_gas_boost")]).apply Sample.baseline).1 =
      .error (.registry (.duplicateRule "rule_gas_boost" "2.0.0")) := rfl
  obtain ⟨x, hx, hsame⟩ := refused_changes_nothing rfl hduplicate
  cases hx
  exact ⟨hduplicate, hsame rfl⟩

end Operation

end WalletRouting
