import WalletRouting.Policy.Validity

/-! # What a valid rule has -/
namespace WalletRouting
set_option autoImplicit false

@[simp] theorem given_eq_true_iff {s : Option String} : given s = true ↔ ∃ t, s = some t ∧ t ≠ "" := by
  cases s <;> simp [given]

namespace Defect

@[simp] theorem when_eq_nil_iff {holds : Bool} {d : Defect} : when holds d = [] ↔ holds = false := by
  cases holds <;> simp [when]

end Defect

namespace Rule

theorem reason_ne_empty {r : Rule} (h : r.isValid = true) : r.action.reason ≠ "" := by
  simp only [isValid, defects, List.isEmpty_iff, List.append_eq_nil_iff, Defect.when_eq_nil_iff,
    decide_eq_false_iff_not] at h
  exact h.1.1.2

theorem target_of_force {r : Rule} (h : r.isValid = true) (hforce : r.action.type = .force) :
    ∃ id, r.action.target = some id ∧ id ≠ "" := by
  simp only [isValid, defects, List.isEmpty_iff, List.append_eq_nil_iff, Defect.when_eq_nil_iff, hforce,
    decide_true, Bool.true_and, Bool.not_eq_false'] at h
  exact given_eq_true_iff.mp h.1.2

end Rule

namespace Condition

/-- A node of a tree: its root, or a node of one of its children. -/
inductive Within (c : Condition) : Condition → Prop where
  | root : Within c c
  | all {field : String} {operator : Operator} {bound : Value} {children : List Condition}
      {any : Option (List Condition)} {child : Condition} (hchild : child ∈ children) (h : Within c child) :
      Within c (.node field operator bound (some children) any)
  | any {field : String} {operator : Operator} {bound : Value} {all : Option (List Condition)}
      {children : List Condition} {child : Condition} (hchild : child ∈ children) (h : Within c child) :
      Within c (.node field operator bound all (some children))

theorem field_mem_fields (c : Condition) : c.field ∈ c.fields := by
  cases c
  exact List.mem_cons_self

theorem mem_fieldsAll {name : String} {children : List Condition} :
    name ∈ fieldsAll children ↔ ∃ child ∈ children, name ∈ child.fields := by
  induction children with
  | nil => simp [fieldsAll]
  | cons c rest ih => simp [fieldsAll, ih]

theorem mem_branchFields {name : String} {branch : Option (List Condition)} :
    name ∈ branchFields branch ↔ ∃ children, branch = some children ∧ ∃ child ∈ children, name ∈ child.fields := by
  cases branch with
  | none => simp [branchFields]
  | some children => simp [branchFields, mem_fieldsAll]

theorem Within.field_mem {c d : Condition} (h : c.Within d) : c.field ∈ d.fields := by
  induction h with
  | root => exact field_mem_fields c
  | all hchild _ ih =>
    refine List.mem_cons_of_mem _ (List.mem_append_left _ (mem_branchFields.mpr ?_))
    exact ⟨_, rfl, _, hchild, ih⟩
  | any hchild _ ih =>
    refine List.mem_cons_of_mem _ (List.mem_append_right _ (mem_branchFields.mpr ?_))
    exact ⟨_, rfl, _, hchild, ih⟩

theorem mem_fields_iff {name : String} : ∀ {d : Condition}, name ∈ d.fields ↔ ∃ c, Within c d ∧ c.field = name
  | .node field operator bound all any => by
    constructor
    · intro h
      rcases List.mem_cons.mp h with rfl | h
      · exact ⟨_, .root, rfl⟩
      rcases List.mem_append.mp h with h | h
      · obtain ⟨children, rfl, child, hchild, hname⟩ := mem_branchFields.mp h
        obtain ⟨c, hc, hfield⟩ := mem_fields_iff.mp hname
        exact ⟨c, .all hchild hc, hfield⟩
      · obtain ⟨children, rfl, child, hchild, hname⟩ := mem_branchFields.mp h
        obtain ⟨c, hc, hfield⟩ := mem_fields_iff.mp hname
        exact ⟨c, .any hchild hc, hfield⟩
    · rintro ⟨c, hc, rfl⟩
      exact hc.field_mem
decreasing_by
  all_goals
    subst_vars
    have := List.sizeOf_lt_of_mem ‹_ ∈ children›
    simp only [Condition.node.sizeOf_spec, Option.some.sizeOf_spec]
    omega

end Condition

namespace Rule

/-- What is asked of a rule: it is named, it says why, every node of its condition is on a known field, and its action
says on whom it acts. -/
structure Complete (r : Rule) : Prop where
  id : r.id ≠ ""
  label : r.label ≠ ""
  fields : ∀ c : Condition, c.Within r.condition → c.field ≠ "" ∧ Field.isKnown c.field = true
  reason : r.action.reason ≠ ""
  target : r.action.type = .force → ∃ id, r.action.target = some id ∧ id ≠ ""
  property : ∀ name, r.action.property = some name → name ≠ "" → InstrumentField.named.has name = true

end Rule

theorem Defect.ofField_eq_nil_iff {name : String} : ofField name = [] ↔ name ≠ "" ∧ Field.isKnown name = true := by
  unfold ofField
  split <;> simp_all

theorem Rule.isValid_iff {r : Rule} : r.isValid = true ↔ r.Complete := by
  have hfields : r.condition.fields.flatMap Defect.ofField = [] ↔
      ∀ c : Condition, c.Within r.condition → c.field ≠ "" ∧ Field.isKnown c.field = true := by
    simp only [List.flatMap_eq_nil_iff, Defect.ofField_eq_nil_iff, Condition.mem_fields_iff]
    constructor
    · intro h c hc
      exact h _ ⟨c, hc, rfl⟩
    · rintro h _ ⟨c, hc, rfl⟩
      exact h c hc
  simp only [isValid, defects, List.isEmpty_iff, List.append_eq_nil_iff, hfields, Defect.when_eq_nil_iff]
  constructor
  · rintro ⟨⟨⟨⟨⟨hid, hlabel⟩, hfields⟩, hreason⟩, htarget⟩, hproperty⟩
    refine ⟨by simpa using hid, by simpa using hlabel, hfields, by simpa using hreason, by simpa using htarget, ?_⟩
    intro name hname hne
    rw [hname] at hproperty
    simpa [hne] using hproperty
  · intro h
    refine ⟨⟨⟨⟨⟨?_, ?_⟩, h.fields⟩, ?_⟩, ?_⟩, ?_⟩
    · simpa using h.id
    · simpa using h.label
    · simpa using h.reason
    · simpa using h.target
    · split
      · next name hname => simpa using h.property name hname
      · rfl

end WalletRouting
