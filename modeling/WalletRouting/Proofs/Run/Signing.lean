import WalletRouting.Proofs.Registry.Signing
import WalletRouting.Proofs.Run.Changes

/-! # Signatures stay true

Every edit signs what it stores, so the versions of a registry are signed as long as their rules can be written. A
version that comes to hold a rule that cannot be written keeps the signature it had.
-/
namespace WalletRouting
set_option autoImplicit false

namespace World

theorem edited_signed {w : World} {done : Except RegistryError (PolicyVersion × Registry)} {p : PolicyVersion}
    (hdone : ∀ q r, done = .ok (q, r) → q.Current) (h : (w.edited done).1 = .ok (.policy p)) :
    PolicyVersion.sign p.rules = .ok p.signature := by
  unfold edited at h
  cases done with
  | error error => cases h
  | ok made =>
    obtain ⟨q, r⟩ := made
    dsimp only at h
    split at h
    · cases h
    · next hwritable =>
      cases h
      exact (hdone _ _ rfl).sign_iff.mpr hwritable

theorem changed_ne_policy {w : World} {done : Except RegistryError Registry} {p : PolicyVersion} :
    (w.changed done).1 ≠ .ok (.policy p) := by
  unfold changed
  cases done <;> rintro ⟨⟩

end World

theorem Operation.answer_signed {o : Operation} {w : World} {p : PolicyVersion}
    (h : (o.apply w).1 = .ok (.policy p)) : PolicyVersion.sign p.rules = .ok p.signature := by
  cases o with
  | add rule => exact World.edited_signed (fun _ _ hdone => Registry.edit_current (Registry.addRule_ok hdone).2) h
  | update id updates => exact World.edited_signed (fun _ _ => Registry.edit_current) h
  | remove id => exact World.edited_signed (fun _ _ => Registry.edit_current) h
  | reorder ids => exact World.edited_signed (fun _ _ => Registry.edit_current) h
  | pin version => exact absurd h World.changed_ne_policy
  | cache version mark => exact absurd h World.changed_ne_policy
  | fetch cached low high seed => exact absurd h (fetch_ne_policy w cached low high seed p)
  | reset => exact absurd h (reset_ne_policy w p)
  | run e t u => exact absurd h (run_ne_policy w e t u p)

theorem Registry.Signed.reaches {v w : World} (hv : v.registry.Signed) (h : v.Reaches w) : w.registry.Signed :=
  throughout_iff.mpr ((throughout_iff.mp hv).reaches PolicyVersion.current_lasting h)

namespace World

/-- An edit stores what it then cannot sign. -/
theorem unsigned_after_add {w : World} {rule : Rule} {p : PolicyVersion} (hvalid : rule.isValid = true)
    (hunwritable : rule.writeErrors ≠ []) (hfind : w.registry.find w.registry.current = .ok p)
    (hfresh : Edit.holds rule.id p.rules = false) :
    ∃ q ∈ ((Operation.add rule).apply w).2.registry.versions, q.rules = p.rules ++ [rule] ∧
      PolicyVersion.sign q.rules ≠ .ok q.signature := by
  have hrules : (p.rules ++ [rule]).findSome? Rule.writeError? ≠ none := by
    intro hnone
    have hrule := List.findSome?_eq_none_iff.mp hnone rule (by simp)
    exact hunwritable (List.head?_eq_none_iff.mp hrule)
  refine ⟨p.withRules (p.rules ++ [rule]), ?_, rfl, ?_⟩
  · have hadd : w.registry.addRule rule = .ok (p.withRules (p.rules ++ [rule]),
        { w.registry with
          versions := Registry.replaceFirst w.registry.current (fun _ => p.withRules (p.rules ++ [rule]))
            w.registry.versions }) := by
      simp [Registry.addRule, Edit.requireValid, hvalid, Registry.edit, hfind, Edit.add, hfresh, bind, Except.bind,
        pure, Except.pure]
    have hworld : ((Operation.add rule).apply w).2 = (w.edited (w.registry.addRule rule)).2 := rfl
    rw [hworld, hadd]
    unfold edited
    dsimp only
    split
    · exact Registry.mem_replaceFirst_of_find (Registry.find_eq_ok hfind)
    · exact Registry.mem_replaceFirst_of_find (Registry.find_eq_ok hfind)
  · intro hsigned
    exact hrules (PolicyVersion.sign_eq_ok_iff.mp hsigned).1

end World

namespace Sample

/-- A list inside a list, and so on. -/
def nest : Nat → Value
  | 0 => .list []
  | n + 1 => .list [nest n]

theorem tooDeep_mem_writeErrors {room n : Nat} (h : room ≤ n) : .tooDeep ∈ (nest n).writeErrors room := by
  induction room generalizing n with
  | zero => simp [Value.writeErrors]
  | succ room ih =>
    cases n with
    | zero => cases h
    | succ n =>
      rw [nest, Value.writeErrors, Value.itemsWriteErrors]
      exact List.mem_append_left _ (ih (Nat.le_of_succ_le_succ h))

def deepRule : Rule :=
  Baseline.rule "rule_deep" "Deep" .soft 11 (Baseline.compare "category" .eq (nest 299)) (Baseline.boost 1 "r")

theorem deepRule_unwritable : deepRule.writeErrors ≠ [] := by
  have hbound : .tooDeep ∈ (nest 299).writeErrors 254 := tooDeep_mem_writeErrors (by decide)
  have hcondition : deepRule.condition = .node "category" .eq (nest 299) none none := rfl
  unfold Rule.writeErrors
  rw [hcondition, Value.depthLimit, Condition.writeErrors]
  exact List.ne_nil_of_mem (List.mem_append_left _ (List.mem_append_left _ hbound))

def clock : Clock := Clock.steady (.int 0) (.int 1)

/-- The baseline policy. -/
def baseline : World := World.opened ⟨none, .null, .null⟩ clock

def blank : PolicyVersion := ⟨"1.0.0", 0, Signature.ofRules [], [], "", false, none⟩

/-- A registry that is given one version without rules. -/
def blankWorld : World := World.opened ⟨some [blank], .null, .null⟩ clock

end Sample

namespace World

end World

end WalletRouting
