import WalletRouting.Policy.Active
import WalletRouting.Proofs.Ordered
import Mathlib.Data.List.Nodup

/-! # The order in which rules take part

Priority decides, and among rules of one priority the order in which they are stored.
-/
namespace WalletRouting
set_option autoImplicit false

namespace Rule

/-- `order` holds the rules by priority, those of one priority as they were stored. -/
structure InPriorityOrder (rules order : List Rule) : Prop where
  sorted : order.Pairwise fun a b => a.priority ≤ b.priority
  stable : ∀ p : Int, order.filter (fun r => r.priority = p) = rules.filter fun r => r.priority = p

theorem InPriorityOrder.filter {rules order : List Rule} (h : InPriorityOrder rules order) (keep : Rule → Bool) :
    InPriorityOrder (rules.filter keep) (order.filter keep) where
  sorted := h.sorted.filter keep
  stable p := by
    have hkeep := congrArg (List.filter keep) (h.stable p)
    simpa only [List.filter_filter, Bool.and_comm] using hkeep

theorem active_inPriorityOrder (rules : List Rule) :
    InPriorityOrder (rules.filter fun r => r.enabled) (active rules) where
  sorted := by
    apply Ordered.sort_pairwise
    · intro a b hle
      simpa [priorityLe] using hle
    · intro a b hle
      simp only [priorityLe, decide_eq_false_iff_not] at hle
      omega
    · intro a b c hle hbc
      simp only [priorityLe, decide_eq_true_eq] at hle
      omega
  stable p := by
    apply Ordered.filter_sort
    intro a b ha hb
    simp only [decide_eq_true_eq] at ha hb
    simp [priorityLe, ha, hb]

theorem current_inPriorityOrder (now : Int) (rules : List Rule) :
    InPriorityOrder (rules.filter fun r => r.enabled && !(r.expired now)) (current now rules) := by
  have h := (active_inPriorityOrder rules).filter fun r => !(r.expired now)
  rw [List.filter_filter] at h
  simpa only [current, Bool.and_comm] using h

theorem mem_current {now : Int} {rules : List Rule} {r : Rule} :
    r ∈ current now rules ↔ r ∈ rules ∧ r.enabled = true ∧ r.expired now = false := by
  simp [current, active, Ordered.mem_sort, and_assoc]

theorem priorityLe_total (a b : Rule) (h : priorityLe a b = false) : priorityLe b a = true := by
  simp only [priorityLe, decide_eq_false_iff_not, decide_eq_true_eq] at h ⊢
  omega

theorem priorityLe_trans (a b c : Rule) (hab : priorityLe a b = true) (hbc : priorityLe b c = true) :
    priorityLe a c = true := by
  simp only [priorityLe, decide_eq_true_eq] at hab hbc ⊢
  omega

theorem current_eq_sort (now : Int) (rules : List Rule) :
    current now rules = Ordered.sort priorityLe (rules.filter fun r => !(r.expired now) && r.enabled) := by
  rw [current, active, Ordered.sort_filter priorityLe_total priorityLe_trans, List.filter_filter]

theorem active_of_perm {rules rules' : List Rule} (hperm : rules.Perm rules')
    (hdistinct : ((rules.filter fun r => r.enabled).map fun r => r.priority).Nodup) : active rules = active rules' := by
  have hsame : (active rules).Perm (active rules') :=
    ((Ordered.sort_perm _ _).trans (hperm.filter _)).trans (Ordered.sort_perm _ _).symm
  refine List.Perm.eq_of_pairwise ?_ (active_inPriorityOrder rules).sorted (active_inPriorityOrder rules').sorted hsame
  intro a b ha hb hab hba
  have hmem {r : Rule} (hr : r ∈ active rules) : r ∈ rules.filter fun r => r.enabled := Ordered.mem_sort.mp hr
  exact List.inj_on_of_nodup_map hdistinct (hmem ha) (hmem (hsame.mem_iff.mpr hb)) (Int.le_antisymm hab hba)

end Rule

end WalletRouting
