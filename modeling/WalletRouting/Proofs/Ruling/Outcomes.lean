import WalletRouting.Proofs.Policy.Active
import WalletRouting.Proofs.Ruling.Settling

/-! # How each rule fares

A ruling tells of every rule that takes part, once and in the order of priority, whether it matched or why it failed.
The rules that are compiled for the same time are those of which it is not told that they have expired.
-/
namespace WalletRouting
set_option autoImplicit false

namespace RuleOutcome

/-- Whether it is told that the rule has expired. A rule that matched may give the same text as its own reason. -/
def isExpiry (o : RuleOutcome) : Bool := !o.matched && o.reason = Ruling.expiredReason

/-- What is told of a rule quotes it as it is compiled, and tells that it has expired exactly if it has. -/
structure Tells (now : Int) (r : Rule) (o : RuleOutcome) : Prop where
  rule : o.ruleId = r.id ∧ o.label = r.label ∧ o.type = r.type
  snippet : o.snippet = some r.snippet
  expiry : o.isExpiry = r.expired now

end RuleOutcome

namespace Ruling

open RuleOutcome (Tells)

/-- A ruling tells these outcomes and no others, those of rules that matched apart from those of rules that failed. -/
structure Told (outcomes : List RuleOutcome) (s : Ruling) : Prop where
  matched : s.matched = outcomes.filter fun o => o.matched
  failed : s.failed = outcomes.filter fun o => !o.matched

namespace Told

variable {outcomes : List RuleOutcome} {s s' : Ruling}

theorem of_eq (h : Told outcomes s) (hmatched : s'.matched = s.matched) (hfailed : s'.failed = s.failed) :
    Told outcomes s' :=
  ⟨hmatched.trans h.matched, hfailed.trans h.failed⟩

theorem addMatched (h : Told outcomes s) (r : Rule) : Told (outcomes ++ [matchedOutcome r]) (addMatched r s) := by
  constructor
  · rw [List.filter_append, ← h.matched]
    rfl
  · rw [List.filter_append, ← h.failed]
    exact (List.append_nil _).symm

theorem addFailed (h : Told outcomes s) (reason : String) (r : Rule) :
    Told (outcomes ++ [failedOutcome reason r]) (addFailed reason r s) := by
  constructor
  · rw [List.filter_append, ← h.matched]
    exact (List.append_nil _).symm
  · rw [List.filter_append, ← h.failed]
    rfl

theorem hit {tally : Tally} (h : Told outcomes tally.ruling) (r : Rule) (names : Keyed String) (i : Instrument) :
    Told outcomes (hit r names tally i).ruling := by
  unfold Ruling.hit
  cases r.action.type with
  | force | exclude | boost | penalize =>
    dsimp only
    split
    · exact h.of_eq rfl rfl
    · exact h
  | block => exact h

theorem hits {tally : Tally} (h : Told outcomes tally.ruling) (r : Rule) (names : Keyed String)
    (touched : List Instrument) : Told outcomes (touched.foldl (Ruling.hit r names) tally).ruling :=
  List.foldlRecOn (motive := fun tally : Tally => Told outcomes tally.ruling) touched _ h
    fun _ h i _ => h.hit r names i

theorem settle (h : Told outcomes s) (entry : String × Pending) : Told outcomes (settle s entry) := by
  cases hyields : s.yields entry.1 with
  | true =>
    rw [settle_of_yields hyields]
    exact h.of_eq rfl rfl
  | false =>
    rw [settle_of_not_yields hyields]
    exact h.of_eq rfl rfl

end Told

/-- What is told of a rule that takes part. -/
def outcome (t : Transaction) (u : User) (instruments : List Instrument) (now : Int) (r : Rule) : RuleOutcome :=
  if r.expired now then failedOutcome expiredReason r
  else if !(hits r t u instruments).isEmpty || r.condition.holds t placeholder u then matchedOutcome r
  else failedOutcome unmetReason r

theorem outcome_tells (t : Transaction) (u : User) (instruments : List Instrument) (now : Int) (r : Rule) :
    Tells now r (outcome t u instruments now r) := by
  unfold outcome
  split
  · next h => exact ⟨⟨rfl, rfl, rfl⟩, rfl, h.symm⟩
  · next h =>
    rw [Bool.not_eq_true] at h
    split
    · exact ⟨⟨rfl, rfl, rfl⟩, rfl, h.symm⟩
    · exact ⟨⟨rfl, rfl, rfl⟩, rfl, h.symm⟩

theorem applyRule_tells {outcomes : List RuleOutcome} {tally : Tally} (h : Told outcomes tally.ruling)
    (t : Transaction) (u : User) (instruments : List Instrument) (names : Keyed String) (now : Int) (r : Rule) :
    Told (outcomes ++ [outcome t u instruments now r]) (applyRule t u instruments names now tally r).ruling := by
  unfold applyRule outcome
  split
  · exact h.addFailed expiredReason r
  · dsimp only
    split
    · exact (h.hits r names _).addMatched r
    · exact (h.hits r names _).addFailed unmetReason r

theorem tally_tells (rules : List Rule) (t : Transaction) (instruments : List Instrument) (u : User) (now : Int) :
    Told ((Rule.active rules).map (outcome t u instruments now)) (tally rules t instruments u now).ruling := by
  unfold tally
  -- The outcomes told so far are generalised together with the tally that tells them.
  have hstart : Told [] (⟨{}, []⟩ : Tally).ruling := ⟨rfl, rfl⟩
  generalize (⟨{}, []⟩ : Tally) = start at hstart ⊢
  change Told ([] ++ _) _
  generalize ([] : List RuleOutcome) = outcomes at hstart ⊢
  induction Rule.active rules generalizing start outcomes with
  | nil => simpa using hstart
  | cons r rest ih =>
    have h := ih _ _ (applyRule_tells hstart t u instruments (namesOf instruments) now r)
    rwa [List.append_assoc] at h

theorem evaluate_tells (rules : List Rule) (t : Transaction) (instruments : List Instrument) (u : User) (now : Int) :
    Told ((Rule.active rules).map (outcome t u instruments now)) (evaluate rules t instruments u now) :=
  List.foldlRecOn _ settle (tally_tells rules t instruments u now) fun _ h entry _ => h.settle entry

theorem Told.countP_failed {outcomes : List RuleOutcome} {s : Ruling} (h : Told outcomes s) :
    s.failed.countP RuleOutcome.isExpiry = outcomes.countP RuleOutcome.isExpiry := by
  rw [h.failed, List.countP_filter]
  apply List.countP_congr
  intro o _
  cases hmatched : o.matched <;> simp [RuleOutcome.isExpiry, hmatched]

theorem Told.length_eq {outcomes : List RuleOutcome} {s : Ruling} (h : Told outcomes s) :
    outcomes.length = s.matched.length + s.failed.length := by
  rw [h.matched, h.failed, ← List.countP_eq_length_filter, ← List.countP_eq_length_filter,
    outcomes.length_eq_countP_add_countP fun o => o.matched]
  simp only [Bool.not_eq_true, Bool.decide_eq_false]

theorem current_eq_filter {now : Int} {outcome : Rule → RuleOutcome} (h : ∀ r, Tells now r (outcome r))
    (rules : List Rule) :
    Rule.current now rules = (Rule.active rules).filter fun r => !(outcome r).isExpiry := by
  apply List.filter_congr
  intro r _
  rw [(h r).expiry]

theorem length_current_add_expired (rules : List Rule) (t : Transaction) (instruments : List Instrument) (u : User)
    (now : Int) :
    (Rule.current now rules).length + (evaluate rules t instruments u now).failed.countP RuleOutcome.isExpiry =
      (evaluate rules t instruments u now).matched.length + (evaluate rules t instruments u now).failed.length := by
  have htold := evaluate_tells rules t instruments u now
  rw [htold.countP_failed, ← htold.length_eq, current_eq_filter (outcome_tells t u instruments now), List.countP_map,
    List.length_map, ← List.countP_eq_length_filter, (Rule.active rules).length_eq_countP_add_countP
      (RuleOutcome.isExpiry ∘ outcome t u instruments now), Nat.add_comm]
  simp only [Function.comp_apply, Bool.not_eq_true, Bool.decide_eq_false]

end Ruling

end WalletRouting
