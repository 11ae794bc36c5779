import WalletRouting.Proofs.Ruling.Parts
import WalletRouting.Proofs.Run.Selection

/-! # How rules are stored

A policy stores its rules as a list, but only priorities are meant by it. Rules of distinct priorities may be stored in
any order; rules that are disabled leave no trace of themselves, and rules that have expired are only told to have.
-/
namespace WalletRouting
set_option autoImplicit false

namespace Ruling

variable {rules rules' : List Rule} {t : Transaction} {instruments : List Instrument} {u : User} {now : Int}

theorem evaluate_of_active (h : Rule.active rules = Rule.active rules') :
    evaluate rules t instruments u now = evaluate rules' t instruments u now ∧
      Rule.current now rules = Rule.current now rules' := by
  unfold evaluate tally Rule.current
  rw [h]
  exact ⟨rfl, rfl⟩

/-! ## What is told of rules in force -/

theorem Told.matched_eq {outcomes : List RuleOutcome} {s : Ruling} (h : Told outcomes s) :
    s.matched = (outcomes.filter fun o => !o.isExpiry).filter fun o => o.matched := by
  rw [h.matched, List.filter_filter]
  apply List.filter_congr
  intro o _
  cases hmatched : o.matched <;> simp [RuleOutcome.isExpiry, hmatched]

theorem Told.filter_failed {outcomes : List RuleOutcome} {s : Ruling} (h : Told outcomes s) :
    (s.failed.filter fun o => !o.isExpiry) = (outcomes.filter fun o => !o.isExpiry).filter fun o => !o.matched := by
  rw [h.failed, List.filter_filter, List.filter_filter]
  simp only [Bool.and_comm]

theorem filter_outcomes (rules : List Rule) (t : Transaction) (instruments : List Instrument) (u : User) (now : Int) :
    ((Rule.active rules).map (outcome t u instruments now)).filter (fun o => !o.isExpiry) =
      (Rule.current now rules).map (outcome t u instruments now) := by
  rw [List.filter_map, current_eq_filter (outcome_tells t u instruments now)]
  rfl

/-- Evaluations by the same rules in force differ at most in the expiries that they tell of. -/
theorem evaluate_of_current (t : Transaction) (instruments : List Instrument) (u : User)
    (h : Rule.current now rules = Rule.current now rules') :
    { evaluate rules t instruments u now with failed := (evaluate rules' t instruments u now).failed } =
        evaluate rules' t instruments u now ∧
      ((evaluate rules t instruments u now).failed.filter fun o => !o.isExpiry) =
        (evaluate rules' t instruments u now).failed.filter fun o => !o.isExpiry := by
  have htold := evaluate_tells rules t instruments u now
  have htold' := evaluate_tells rules' t instruments u now
  have hmet : encounters rules t instruments u now = encounters rules' t instruments u now := by
    rw [encounters, encounters, h]
  have hdecided : (evaluate rules t instruments u now).decided = (evaluate rules' t instruments u now).decided := by
    rw [decided_evaluate, decided_evaluate, hmet]
  refine ⟨eq_of_parts hdecided ?_ ?_ rfl, ?_⟩
  · change (evaluate rules t instruments u now).forcedName = _
    rw [evaluate_names, evaluate_names, forcedId_evaluate, forcedId_evaluate, hmet]
  · change (evaluate rules t instruments u now).matched = _
    rw [htold.matched_eq, htold'.matched_eq, filter_outcomes, filter_outcomes, h]
  · rw [htold.filter_failed, htold'.filter_failed, filter_outcomes, filter_outcomes, h]

end Ruling

end WalletRouting
