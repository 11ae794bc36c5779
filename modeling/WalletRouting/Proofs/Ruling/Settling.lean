import WalletRouting.Proofs.Keyed
import WalletRouting.Ruling.Evaluation

/-! # Settling exclusions

Whether an exclusion yields is a question to the override alone, which settling does not touch. So the exclusions of
distinct instruments are settled apart: those that yield are recorded as overridden, the others take effect, and both
keep the order in which they waited.
-/
namespace WalletRouting
set_option autoImplicit false

namespace Ruling

/-- Whether an exclusion of this instrument yields to the rule that forces it. -/
def yields (s : Ruling) (id : String) : Bool := s.hardOverride && s.forcedId = some id

/-- The label that an overridden exclusion names. -/
def forcingLabel (s : Ruling) : String :=
  match s.forcingRule with
  | some f => f.label
  | none => "Hard Rule"

def overrideOf (s : Ruling) (entry : String × Pending) : Overridden where
  credentialId := entry.1
  credentialName := entry.2.credentialName
  violation := Overridden.exclusionOverride
  reason := entry.2.reason
  overriddenBy := s.forcingLabel
  ruleId := entry.2.ruleId
  severity := .warning

def exclusionOf (entry : String × Pending) : Exclusion :=
  ⟨entry.1, entry.2.credentialName, entry.2.reason, some entry.2.ruleId, stageName⟩

theorem settle_of_yields {s : Ruling} {entry : String × Pending} (h : s.yields entry.1 = true) :
    settle s entry = { s with overridden := s.overridden ++ [overrideOf s entry] } := by
  simp only [yields, Bool.and_eq_true, decide_eq_true_eq] at h
  simp only [settle, if_pos h]
  rfl

theorem settle_of_not_yields {s : Ruling} {entry : String × Pending} (h : s.yields entry.1 = false) :
    settle s entry =
      { s with
        excluded := s.excluded.put entry.1 entry.2.reason
        exclusions := s.exclusions ++ [exclusionOf entry] } := by
  have h : ¬(s.hardOverride = true ∧ s.forcedId = some entry.1) := by
    rintro ⟨hoverride, hforced⟩
    simp [yields, hoverride, hforced] at h
  simp only [settle, if_neg h]
  rfl

/-- What a ruling becomes once all that waits is settled. -/
def settled (s : Ruling) (pending : Keyed Pending) : Ruling :=
  { s with
    excluded := s.excluded ++ (pending.filter fun p => !(s.yields p.1)).map fun p => (p.1, p.2.reason)
    exclusions := s.exclusions ++ (pending.filter fun p => !(s.yields p.1)).map exclusionOf
    overridden := s.overridden ++ (pending.filter fun p => s.yields p.1).map (overrideOf s) }

theorem foldl_settle (pending : Keyed Pending) (s : Ruling) (hnodup : pending.keys.Nodup)
    (hfresh : ∀ id ∈ pending.keys, id ∉ s.excluded.keys) : pending.foldl settle s = s.settled pending := by
  induction pending generalizing s with
  | nil => simp [settled]
  | cons entry rest ih =>
    obtain ⟨hnew, hnodup⟩ := List.nodup_cons.mp hnodup
    have hrest : ∀ id ∈ Keyed.keys rest, id ∉ s.excluded.keys := fun id hid =>
      hfresh id (List.mem_cons_of_mem _ hid)
    rw [List.foldl_cons]
    cases h : s.yields entry.1 with
    | true =>
      rw [settle_of_yields h]
      refine (ih { s with overridden := s.overridden ++ [overrideOf s entry] } hnodup hrest).trans ?_
      simp only [settled, List.filter_cons, h, Bool.not_true, Bool.false_eq_true, if_false, if_true, List.map_cons,
        List.append_assoc, List.singleton_append]
      rfl
    | false =>
      rw [settle_of_not_yields h, Keyed.put_of_not_mem entry.2.reason (hfresh entry.1 List.mem_cons_self)]
      refine (ih _ hnodup ?_).trans ?_
      · intro id hid hmem
        simp only [Keyed.keys, List.map_append, List.map_cons, List.map_nil, List.mem_append,
          List.mem_singleton] at hmem
        rcases hmem with hold | rfl
        · exact hrest id hid hold
        · exact hnew hid
      · simp only [settled, List.filter_cons, h, Bool.not_false, Bool.false_eq_true, if_false, if_true, List.map_cons,
          List.append_assoc, List.singleton_append]
        rfl

section Settled

variable {s : Ruling} {pending : Keyed Pending}

theorem get?_excluded_settled (hnone : s.excluded = []) (id : String) :
    (s.settled pending).excluded.get? id =
      if s.yields id then none else (pending.get? id).map fun p => p.reason := by
  have h : (s.settled pending).excluded =
      (pending.filter fun p => !(s.yields p.1)).map fun p => (p.1, p.2.reason) := by
    simp only [settled, hnone, List.nil_append]
  rw [h, Keyed.get?_map fun p : Pending => p.reason, Keyed.get?_filter fun k => !(s.yields k)]
  cases s.yields id <;> rfl

theorem exclusions_settled (hnone : s.exclusions = []) (hnodup : pending.keys.Nodup) (id : String) :
    (s.settled pending).exclusions.filter (fun x => x.credentialId = id) =
      if s.yields id then [] else ((pending.get? id).map fun p => exclusionOf (id, p)).toList := by
  have h : (s.settled pending).exclusions = (pending.filter fun p => !(s.yields p.1)).map exclusionOf := by
    simp only [settled, hnone, List.nil_append]
  have hcomp : (fun x : Exclusion => decide (x.credentialId = id)) ∘ exclusionOf = fun p => decide (p.1 = id) := rfl
  rw [h, List.filter_map, hcomp, Keyed.filter_key_of_keep hnodup fun k => !(s.yields k)]
  cases s.yields id with
  | true => rfl
  | false => cases pending.get? id <;> rfl

theorem overridden_settled (hnone : s.overridden = []) (hnodup : pending.keys.Nodup) (id : String) :
    (s.settled pending).overridden.filter (fun v => v.credentialId = id) =
      if s.yields id then ((pending.get? id).map fun p => overrideOf s (id, p)).toList else [] := by
  have h : (s.settled pending).overridden = (pending.filter fun p => s.yields p.1).map (overrideOf s) := by
    simp only [settled, hnone, List.nil_append]
  have hcomp : (fun v : Overridden => decide (v.credentialId = id)) ∘ overrideOf s = fun p => decide (p.1 = id) := rfl
  rw [h, List.filter_map, hcomp, Keyed.filter_key_of_keep hnodup s.yields]
  cases s.yields id with
  | true => cases pending.get? id <;> rfl
  | false => rfl

theorem keys_excluded_settled (hexcluded : s.excluded = []) (hexclusions : s.exclusions = []) :
    (s.settled pending).exclusions.map (fun x => x.credentialId) = (s.settled pending).excluded.keys := by
  simp only [settled, hexcluded, hexclusions, List.nil_append, Keyed.keys, List.map_map]
  rfl

theorem nodup_excluded_settled (hnone : s.excluded = []) (hnodup : pending.keys.Nodup) :
    (s.settled pending).excluded.keys.Nodup := by
  have h : (s.settled pending).excluded.keys = Keyed.keys (pending.filter fun p => !(s.yields p.1)) := by
    simp only [settled, hnone, List.nil_append, Keyed.keys, List.map_map]
    rfl
  rw [h]
  exact Keyed.nodup_keys_filter hnodup _

end Settled

end Ruling

end WalletRouting
