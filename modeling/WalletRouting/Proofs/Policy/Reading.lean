import WalletRouting.Proofs.Policy.Tree
import WalletRouting.Proofs.Schema.Reading
import WalletRouting.Proofs.Schema.Writing

/-! # Rules that are read back

A rule that is written member by member reads as itself: a tree of conditions as long as it is not too deep, with whatever
values it compares, and an action with whatever value it is gated on.
-/
namespace WalletRouting
set_option autoImplicit false

open Schema

namespace Condition

variable {room : Nat} {branch : Option (List Condition)}

theorem readItems_toValues {free : Value → Value} {cs : List Condition}
    (h : ∀ c ∈ cs, readWithin room (c.toValueWith free) = .ok c) (i : Nat) :
    readItems room i (toValues free cs) = .ok cs := by
  induction cs generalizing i with
  | nil => rfl
  | cons c cs ih =>
    rw [List.forall_mem_cons] at h
    rw [toValues, readItems, h.1, ih h.2]
    rfl

theorem readBranch_branchValue {free : Value → Value}
    (h : ∀ c ∈ children branch, readWithin room (c.toValueWith free) = .ok c) :
    readBranch room (branchValue free branch) = .ok branch := by
  cases branch with
  | none => rfl
  | some cs =>
    have hitems : readItems room 0 (toValues free cs) = .ok cs := readItems_toValues h 0
    rw [branchValue, readBranch, hitems]
    rfl

theorem readWithin_exact {c : Condition} (h : .tooDeep ∉ c.writeErrors room) :
    readWithin room (c.toValueWith fun v => v) = .ok c := by
  induction c using induct generalizing room with
  | node field operator bound all any hall hany =>
    cases room with
    | zero => exact absurd List.mem_cons_self h
    | succ room =>
      rw [writeErrors, branchWriteErrors_eq, branchWriteErrors_eq] at h
      simp only [List.mem_append, List.mem_flatMap, not_or, not_exists, not_and] at h
      have hand := readBranch_branchValue fun c hc => hall c hc (h.2.1 c hc)
      have hor := readBranch_branchValue fun c hc => hany c hc (h.2.2 c hc)
      have hoperator : member Operator.named .unknownMember (.text operator.name) = .ok operator := by
        cases operator <;> exact member_text (by decide) (by decide)
      rw [toValueWith, readWithin]
      dsimp only
      rw [required_ok rfl (text_text field), required_ok rfl hoperator, optional_ok rfl (anything_self bound)]
      simp only [readUnder, String.reduceEq, if_true, if_false, hand, hor]
      rfl

theorem read_exact {c : Condition} (h : .tooDeep ∉ c.writeErrors Value.depthLimit) :
    read (c.toValueWith fun v => v) = .ok c := readWithin_exact h

end Condition

theorem Action.read_exact (a : Action) : read (a.toValueWith fun v => v) = .ok a := by
  have htype : member ActionType.named .unknownMember (.text a.type.name) = .ok a.type := by
    cases a.type <;> exact member_text (by decide) (by decide)
  unfold read record toValueWith
  dsimp only
  rw [required_ok rfl htype, optional_ok rfl (nullable_text a.target), optional_ok rfl (nullable_text a.property),
    optional_ok rfl (anything_self a.propertyValue), optional_ok rfl (nullable_double a.boost),
    optional_ok rfl (nullable_double a.penalty), optional_ok rfl (text_text a.reason)]
  rfl

namespace Rule

/-- What a rule that was read has of each member. -/
structure ReadFrom (m : Keyed Value) (r : Rule) : Prop where
  id : required "id" text m = .ok r.id
  label : required "label" text m = .ok r.label
  type : required "type" (member RuleType.named .unknownMember) m = .ok r.type
  priority : optional "priority" 100 integer m = .ok r.priority
  enabled : optional "enabled" true flag m = .ok r.enabled
  expiry : optional "expiry" none (nullable integer) m = .ok r.expiry
  condition : required "condition" Condition.read m = .ok r.condition
  action : required "action" Action.read m = .ok r.action
  compiled : optional "compiled_dsl" none (nullable text) m = .ok r.compiled

theorem readFrom {m : Keyed Value} {r : Rule} (h : read (.object m) = .ok r) : ReadFrom m r := by
  obtain ⟨_, compiled, h₈, hcompiled, rfl⟩ := Checked.seq_eq_ok h
  obtain ⟨_, action, h₇, haction, rfl⟩ := Checked.seq_eq_ok h₈
  obtain ⟨_, condition, h₆, hcondition, rfl⟩ := Checked.seq_eq_ok h₇
  obtain ⟨_, expiry, h₅, hexpiry, rfl⟩ := Checked.seq_eq_ok h₆
  obtain ⟨_, enabled, h₄, henabled, rfl⟩ := Checked.seq_eq_ok h₅
  obtain ⟨_, priority, h₃, hpriority, rfl⟩ := Checked.seq_eq_ok h₄
  obtain ⟨_, type, h₂, htype, rfl⟩ := Checked.seq_eq_ok h₃
  obtain ⟨_, label, h₁, hlabel, rfl⟩ := Checked.seq_eq_ok h₂
  obtain ⟨id, hid, rfl⟩ := Checked.map_eq_ok h₁
  exact ⟨hid, hlabel, htype, hpriority, henabled, hexpiry, hcondition, haction, hcompiled⟩

theorem readType_exact (t : RuleType) : member RuleType.named .unknownMember (.text t.name) = .ok t := by
  cases t <;> exact member_text (by decide) (by decide)

/-- A rule in which not too much lies inside one another reads as itself. -/
theorem read_exact {r : Rule} (h : .tooDeep ∉ r.writeErrors) : read (.object r.exactMembers) = .ok r := by
  have hcondition := Condition.read_exact fun hdeep => h (List.mem_append_left _ hdeep)
  unfold read record exactMembers members
  dsimp only
  rw [required_ok rfl (text_text r.id), required_ok rfl (text_text r.label), required_ok rfl (readType_exact r.type),
    optional_ok rfl (integer_int r.priority), optional_ok rfl (flag_bool r.enabled),
    optional_ok rfl (nullable_integer r.expiry), required_ok rfl hcondition,
    required_ok rfl (Action.read_exact r.action), optional_ok rfl (nullable_text r.compiled)]
  rfl

end Rule

end WalletRouting
