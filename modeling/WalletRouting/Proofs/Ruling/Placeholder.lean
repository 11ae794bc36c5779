import WalletRouting.Proofs.Policy.Loss
import WalletRouting.Proofs.Ruling.Storage

/-! # Rules that hit nothing

A rule that hits no instrument is tried on a placeholder. Where a tree asks for nothing but the transaction and the user,
the placeholder stands for any instrument, and so it counts only where none is eligible. But it is a card like another,
with a network, a type and a limit, and whatever else a tree asks for is asked of it too.
-/
namespace WalletRouting
set_option autoImplicit false

namespace Field

/-- Whether a name stands for neither a field of the transaction nor one that depends on the user alone. -/
def ofInstrument (name : String) : Bool :=
  !(TransactionField.named.has name) && !((DerivedField.named.get? name).any DerivedField.ofUser)

theorem value_of_ofUser {f : DerivedField} (h : f.ofUser = true) (t : Transaction) (i j : Instrument) (u : User) :
    f.value t i u = f.value t j u := by
  cases f with
  | daysToPaycheck | cashBalance => rfl
  | _ => cases h

theorem resolve_of_not_ofInstrument {name : String} (h : ofInstrument name = false) (t : Transaction)
    (i j : Instrument) (u : User) : resolve name t i u = resolve name t j u := by
  unfold resolve
  cases htransaction : TransactionField.named.get? name with
  | some f => rfl
  | none =>
    cases hderived : DerivedField.named.get? name with
    | none => simp [ofInstrument, Keyed.has, htransaction, hderived] at h
    | some f =>
      have hofUser : f.ofUser = true := by simpa [ofInstrument, Keyed.has, htransaction, hderived] using h
      exact congrArg Reading.value (value_of_ofUser hofUser t i j u)

end Field

namespace Condition

/-- Whether the tree names fields of the transaction and of the user only. -/
def asksNoInstrument (c : Condition) : Bool := c.fields.all fun name => !(Field.ofInstrument name)

variable {c : Condition} {t : Transaction} {i j : Instrument} {u : User}

theorem holds_congr (h : ∀ field ∈ c.fields, Field.resolve field t i u = Field.resolve field t j u) :
    c.holds t i u = c.holds t j u :=
  Bool.eq_iff_iff.mpr ⟨(fails_closed c t j u).elsewhere t i u fun field hfield => Or.inr (h field hfield),
    (fails_closed c t i u).elsewhere t j u fun field hfield => Or.inr (h field hfield).symm⟩

theorem holds_of_asksNoInstrument (h : c.asksNoInstrument = true) (t : Transaction) (i j : Instrument) (u : User) :
    c.holds t i u = c.holds t j u :=
  holds_congr fun field hfield =>
    Field.resolve_of_not_ofInstrument (by simpa using List.all_eq_true.mp h field hfield) t i j u

theorem exists_field_of_holds_ne (h : c.holds t i u ≠ c.holds t j u) :
    ∃ field ∈ c.fields, Field.ofInstrument field = true ∧ Field.resolve field t i u ≠ Field.resolve field t j u := by
  by_contra hnone
  apply h
  refine holds_congr fun field hfield => ?_
  by_contra hne
  refine hnone ⟨field, hfield, ?_, hne⟩
  rw [← Bool.not_eq_false]
  exact fun hother => hne (Field.resolve_of_not_ofInstrument hother t i j u)

end Condition

namespace Ruling

/-- The rules of which it is told that they matched. -/
def reported (rules : List Rule) (t : Transaction) (instruments : List Instrument) (u : User) (now : Int) : List Rule :=
  (Rule.current now rules).filter fun r => !(hits r t u instruments).isEmpty || r.condition.holds t placeholder u

variable {rules : List Rule} {t : Transaction} {instruments : List Instrument} {u : User} {now : Int} {r : Rule}

theorem matched_eq_reported (rules : List Rule) (t : Transaction) (instruments : List Instrument) (u : User)
    (now : Int) :
    (evaluate rules t instruments u now).matched = (reported rules t instruments u now).map matchedOutcome := by
  have houtcome {r : Rule} (hr : r ∈ Rule.current now rules) : outcome t u instruments now r =
      if !(hits r t u instruments).isEmpty || r.condition.holds t placeholder u then matchedOutcome r
      else failedOutcome unmetReason r := by
    rw [outcome, (Rule.mem_current.mp hr).2.2, if_neg Bool.false_ne_true]
  rw [(evaluate_tells rules t instruments u now).matched_eq, filter_outcomes, List.filter_map, reported]
  have hfilter : (Rule.current now rules).filter ((fun o => o.matched) ∘ outcome t u instruments now) =
      (Rule.current now rules).filter fun r => !(hits r t u instruments).isEmpty || r.condition.holds t placeholder u := by
    refine List.filter_congr fun r hr => ?_
    rw [Function.comp_apply, houtcome hr]
    split
    · next h => exact h.symm
    · next h => exact (Bool.eq_false_iff.mpr h).symm
  rw [hfilter]
  refine List.map_congr_left fun r hr => ?_
  obtain ⟨hr, h⟩ := List.mem_filter.mp hr
  rw [houtcome hr, if_pos h]

theorem mem_reported : r ∈ reported rules t instruments u now ↔
    r ∈ Rule.current now rules ∧ (hits r t u instruments ≠ [] ∨ r.condition.holds t placeholder u = true) := by
  simp [reported]

theorem hits_eq_nil : hits r t u instruments = [] ↔
    ∀ i ∈ instruments, i.eligible = true → r.condition.holds t i u = false := by
  simp [hits, List.filter_eq_nil_iff]

theorem mem_reported_of_asksNoInstrument (hr : r ∈ Rule.current now rules)
    (hasks : r.condition.asksNoInstrument = true) (i : Instrument) :
    r ∈ reported rules t instruments u now ↔ r.condition.holds t i u = true := by
  rw [mem_reported, Condition.holds_of_asksNoInstrument hasks t placeholder i u]
  refine ⟨fun ⟨_, h⟩ => h.elim (fun htouched => ?_) id, fun h => ⟨hr, Or.inr h⟩⟩
  obtain ⟨j, hj⟩ := List.exists_mem_of_ne_nil _ htouched
  rw [Condition.holds_of_asksNoInstrument hasks t i j u]
  exact (Bool.and_eq_true_iff.mp (List.mem_filter.mp hj).2).2

theorem holds_placeholder_of_untouched (hr : r ∈ reported rules t instruments u now)
    (huntouched : hits r t u instruments = []) : r.condition.holds t placeholder u = true :=
  (mem_reported.mp hr).2.resolve_left fun htouched => htouched huntouched

/-- A rule that asks no instrument is told of as the transaction and the user are. Any other that is told to have matched
without hitting anything matched on what the placeholder has and no eligible instrument has; and where one is eligible,
there are none but these. -/
theorem reports_untouched (rules : List Rule) (t : Transaction) (instruments : List Instrument) (u : User) (now : Int) :
    (evaluate rules t instruments u now).matched = (reported rules t instruments u now).map matchedOutcome ∧
    (∀ r ∈ Rule.current now rules, r.condition.asksNoInstrument = true →
      ∀ i, r ∈ reported rules t instruments u now ↔ r.condition.holds t i u = true) ∧
    (∀ r ∈ reported rules t instruments u now, hits r t u instruments = [] → ∀ i ∈ instruments, i.eligible = true →
      ∃ field ∈ r.condition.fields, Field.ofInstrument field = true ∧
        Field.resolve field t placeholder u ≠ Field.resolve field t i u) ∧
    ((∀ r ∈ reported rules t instruments u now, hits r t u instruments = [] → r.condition.asksNoInstrument = true) ↔
      ∀ r ∈ Rule.current now rules, hits r t u instruments = [] → r.condition.holds t placeholder u = true →
        r.condition.asksNoInstrument = true ∧ ∀ i ∈ instruments, i.eligible = false) := by
  refine ⟨matched_eq_reported rules t instruments u now, fun r hr hasks => mem_reported_of_asksNoInstrument hr hasks,
    ?_, ?_, ?_⟩
  · intro r hr huntouched i hi heligible
    apply Condition.exists_field_of_holds_ne
    rw [holds_placeholder_of_untouched hr huntouched, hits_eq_nil.mp huntouched i hi heligible]
    decide
  · intro hall r hr huntouched hholds
    have hasks := hall r (mem_reported.mpr ⟨hr, Or.inr hholds⟩) huntouched
    refine ⟨hasks, fun i hi => Bool.eq_false_iff.mpr fun heligible => ?_⟩
    have hmissed := hits_eq_nil.mp huntouched i hi heligible
    rw [Condition.holds_of_asksNoInstrument hasks t i placeholder u, hholds] at hmissed
    cases hmissed
  · intro hall r hr huntouched
    exact (hall r (mem_reported.mp hr).1 huntouched (holds_placeholder_of_untouched hr huntouched)).1

/-- A rule for one network is told to have matched in a wallet without a card of it. -/
theorem reports_rule_for_absent_network :
    let rule := Baseline.rule "rule_visa" "Visa Promotion" .soft 1 (Baseline.compare "network" .eq (.text "visa"))
      (Baseline.boost 5 "Visa promotion")
    let card := Instrument.card { Sample.card "a" with network := .amex }
    matchedOutcome rule ∈ (evaluate [rule] Sample.purchase [card] Sample.user 0).matched ∧
      hits rule Sample.purchase Sample.user [card] = [] ∧
      "network" ∈ rule.condition.fields ∧ TransactionField.named.get? "network" = none ∧
      DerivedField.named.get? "network" = none := by
  intro rule card
  have hcurrent : rule ∈ Rule.current 0 [rule] := Rule.mem_current.mpr ⟨List.mem_singleton_self rule, rfl, rfl⟩
  have hholds : rule.condition.holds Sample.purchase placeholder Sample.user = true := by decide +kernel
  refine ⟨?_, by decide +kernel, by decide, by decide, by decide⟩
  rw [matched_eq_reported]
  exact List.mem_map_of_mem (mem_reported.mpr ⟨hcurrent, Or.inr hholds⟩)

end Ruling

end WalletRouting
