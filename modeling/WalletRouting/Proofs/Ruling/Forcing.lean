import WalletRouting.Proofs.Policy.Validity
import WalletRouting.Proofs.Ruling.Decision

/-! # Whom a policy forces and whom it excludes

What follows from a decision: an instrument that is forced is not excluded, and it alone may have an exclusion
overridden. The rule that forces is the last one that hits anything.
-/
namespace WalletRouting
set_option autoImplicit false

namespace Ruling

open Encounter (lastWhere)

namespace Decides

variable {met : List Encounter} {s : Ruling} {id : String}

theorem forcedId_of_override_eq_false (h : Decides met s) (hfree : s.hardOverride = false) :
    s.forcedId = none ∧ s.forcingRule = none := by
  have hlast : lastWhere Encounter.forces met = none := by
    rw [Encounter.lastWhere_eq_none_iff]
    intro e he
    cases hforces : e.forces with
    | false => rfl
    | true =>
      rw [h.override.mpr ⟨e, he, hforces⟩] at hfree
      cases hfree
  rw [h.forced, h.forcing, hlast]
  exact ⟨rfl, rfl⟩

theorem mem_exclusions_iff (h : Decides met s) : (∃ x ∈ s.exclusions, x.credentialId = id) ↔ id ∈ s.excluded.keys := by
  rw [← h.once.2, List.mem_map]

theorem not_excluded_of_yields (h : Decides met s) (hyields : s.yields id = true) : id ∉ s.excluded.keys := by
  intro hmem
  obtain ⟨e, hlast⟩ := exists_excludes_iff.mp ((h.touched id).mp (Or.inl hmem))
  exact (h.overridden id e hlast hyields).2.1 hmem

theorem yields_of_overridden (h : Decides met s) {v : Overridden} (hv : v ∈ s.overridden) :
    s.yields v.credentialId = true := by
  cases hyields : s.yields v.credentialId with
  | true => rfl
  | false =>
    obtain ⟨e, hlast⟩ := exists_excludes_iff.mp ((h.touched v.credentialId).mp (Or.inr ⟨v, hv, rfl⟩))
    exact absurd rfl ((h.excluded _ e hlast hyields).2.2 v hv)

theorem overridden_length_le_one (h : Decides met s) {f : String} (hforced : s.forcedId = some f) :
    s.overridden.length ≤ 1 := by
  have hids : ∀ v ∈ s.overridden, v.credentialId = f := by
    intro v hv
    have hyields := h.yields_of_overridden hv
    simp only [yields, hforced, Bool.and_eq_true, decide_eq_true_eq, Option.some.injEq] at hyields
    exact hyields.2.symm
  have hall : s.overridden.filter (fun v => v.credentialId = f) = s.overridden :=
    List.filter_eq_self.mpr fun v hv => decide_eq_true (hids v hv)
  rw [← hall]
  cases hover : s.overridden with
  | nil => exact Nat.zero_le 1
  | cons v rest =>
    have hv : v ∈ s.overridden := hover ▸ List.mem_cons_self
    have hyields := h.yields_of_overridden hv
    rw [hids v hv] at hyields
    obtain ⟨e, hlast⟩ := exists_excludes_iff.mp ((h.touched f).mp (Or.inr ⟨v, hv, hids v hv⟩))
    rw [← hover, (h.overridden f e hlast hyields).1]
    exact Nat.le_refl 1

theorem exists_excludes_of_get? (h : Decides met s) {reason : String} (hget : s.excluded.get? id = some reason) :
    ∃ e ∈ met, reason = e.reason := by
  have hmem : id ∈ s.excluded.keys := Keyed.mem_keys_iff.mpr ⟨reason, hget⟩
  obtain ⟨e, hlast⟩ := exists_excludes_iff.mp ((h.touched id).mp (Or.inl hmem))
  cases hyields : s.yields id with
  | true => exact absurd hmem (h.not_excluded_of_yields hyields)
  | false =>
    rw [(h.excluded id e hlast hyields).1] at hget
    exact ⟨e, (Encounter.mem_of_lastWhere hlast).1, (Option.some.inj hget).symm⟩

end Decides

theorem reason_ne_empty_of_valid {rules : List Rule} {t : Transaction} {instruments : List Instrument} {u : User}
    {now : Int} (hvalid : ∀ r ∈ rules, r.isValid = true) {id reason : String}
    (hget : (evaluate rules t instruments u now).excluded.get? id = some reason) : reason ≠ "" := by
  obtain ⟨e, he, rfl⟩ := (evaluate_decides rules t instruments u now).exists_excludes_of_get? hget
  have hrule : e.rule ∈ rules := (Rule.mem_current.mp (mem_encounters.mp he).1).1
  unfold Encounter.reason
  split
  · decide
  · exact Rule.reason_ne_empty (hvalid e.rule hrule)

/-! ## The rule that forces -/

/-- The rules that force and hit an eligible instrument, in the order in which they take part. -/
def forcingRules (rules : List Rule) (t : Transaction) (instruments : List Instrument) (u : User) (now : Int) :
    List Rule :=
  (Rule.current now rules).filter fun r =>
    r.type = .hard && r.action.type = .force && !(hits r t u instruments).isEmpty

theorem getLast?_flatMap {α β : Type} {f : α → List β} {g : β → α} (h : ∀ a, ∀ b ∈ f a, g b = a) (l : List α) :
    (l.flatMap f).getLast?.map g = (l.filter fun a => !(f a).isEmpty).getLast? := by
  induction l with
  | nil => rfl
  | cons a rest ih =>
    rw [List.flatMap_cons, List.getLast?_append, List.filter_cons]
    cases hlast : (f a).getLast? with
    | none =>
      have hnil : f a = [] := List.getLast?_eq_none_iff.mp hlast
      simp [hnil, ih]
    | some b =>
      have hb : b ∈ f a := List.mem_of_getLast? hlast
      have hfull : (!(f a).isEmpty) = true := by
        cases hfa : f a with
        | nil =>
          rw [hfa] at hb
          cases hb
        | cons c cs => rfl
      rw [if_pos hfull, List.getLast?_cons, ← ih]
      cases (rest.flatMap f).getLast? with
      | none => simp [h a b hb]
      | some c => rfl

theorem lastWhere_forces_encounters (rules : List Rule) (t : Transaction) (instruments : List Instrument) (u : User)
    (now : Int) :
    (lastWhere Encounter.forces (encounters rules t instruments u now)).map (fun e => e.rule) =
      (forcingRules rules t instruments u now).getLast? := by
  unfold lastWhere encounters forcingRules
  rw [List.filter_flatMap, getLast?_flatMap]
  · congr 1
    apply List.filter_congr
    intro r _
    cases hforces : r.type = .hard && r.action.type = .force with
    | true =>
      have hall : ((hits r t u instruments).map (Encounter.mk r)).filter Encounter.forces =
          (hits r t u instruments).map (Encounter.mk r) := by
        apply List.filter_eq_self.mpr
        intro e he
        obtain ⟨i, _, rfl⟩ := List.mem_map.mp he
        exact hforces
      rw [Bool.true_and, ← hits, hall, List.isEmpty_map]
    | false =>
      have hnone : ((hits r t u instruments).map (Encounter.mk r)).filter Encounter.forces = [] := by
        apply List.filter_eq_nil_iff.mpr
        intro e he
        obtain ⟨i, _, rfl⟩ := List.mem_map.mp he
        exact Bool.eq_false_iff.mp hforces
      rw [Bool.false_and, ← hits, hnone]
      rfl
  · intro r e he
    obtain ⟨i, _, rfl⟩ := List.mem_map.mp (List.mem_filter.mp he).1
    rfl

end Ruling

end WalletRouting
