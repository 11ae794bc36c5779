import WalletRouting.Policy.Signature
import WalletRouting.Proofs.Json.Datum
import WalletRouting.Proofs.Policy.Tree

/-! # What a rule provides

The provision of a rule is the JSON data that its signature covers: its id, its type, its priority, the tree of its
condition and its action. Two rules are signed for the same datum exactly if they provide the same.
-/
namespace WalletRouting
set_option autoImplicit false

/-- A condition as JSON data. -/
inductive Clause where
  | node (field : List Nat) (operator : Operator) (bound : Datum) (all any : Option (List Clause))

/-- An action as JSON data. -/
structure Effect where
  type : ActionType
  target : Option (List Nat)
  property : Option (List Nat)
  propertyValue : Datum
  boost : Option Binary
  penalty : Option Binary
  reason : List Nat

/-- A rule as JSON data, without what its signature leaves out. -/
structure Provision where
  id : List Nat
  type : RuleType
  priority : Int
  clause : Clause
  effect : Effect

namespace Condition

mutual

def clause : Condition → Clause
  | .node field operator bound all any =>
    .node (Text.units field) operator bound.datum (branchClauses all) (branchClauses any)

def branchClauses : Option (List Condition) → Option (List Clause)
  | none => none
  | some cs => some (clauses cs)

def clauses : List Condition → List Clause
  | [] => []
  | c :: cs => clause c :: clauses cs

end

theorem branchClauses_eq (branch : Option (List Condition)) : branchClauses branch = branch.map (List.map clause) := by
  have hclauses (cs : List Condition) : clauses cs = cs.map clause := by
    induction cs with
    | nil => rfl
    | cons c cs ih => rw [clauses, ih, List.map_cons]
  cases branch with
  | none => rfl
  | some cs => rw [branchClauses, hclauses, Option.map_some]

theorem branchContent_eq (branch : Option (List Condition)) :
    branchContent branch = branch.map fun cs => .list (cs.map content) := by
  have hcontents (cs : List Condition) : contents cs = cs.map content := by
    induction cs with
    | nil => rfl
    | cons c cs ih => rw [contents, ih, List.map_cons]
  cases branch with
  | none => rfl
  | some cs => rw [branchContent, hcontents, Option.map_some]

end Condition

def Action.effect (a : Action) : Effect where
  type := a.type
  target := a.target.map Text.units
  property := a.property.map Text.units
  propertyValue := a.propertyValue.datum
  boost := a.boost.map Binary.ofFloat
  penalty := a.penalty.map Binary.ofFloat
  reason := Text.units a.reason

namespace Rule

def provision (r : Rule) : Provision where
  id := Text.units r.id
  type := r.type
  priority := r.priority
  clause := r.condition.clause
  effect := r.action.effect

/-- Every place in a rule where any value may stand. -/
def freeValues (r : Rule) : List Value := r.condition.comparisons.map Comparison.bound ++ [r.action.propertyValue]

end Rule

/-! ## Members that may be absent -/

/-- The members that are there. -/
def entries : List (List Nat) → List (Option Datum) → List (List Nat × Datum)
  | name :: names, some d :: data => (name, d) :: entries names data
  | _ :: names, none :: data => entries names data
  | _, _ => []

theorem lookup_entries_of_not_mem {name : List Nat} {names : List (List Nat)} (h : name ∉ names)
    (data : List (Option Datum)) : (entries names data).lookup name = none := by
  induction names generalizing data with
  | nil => rfl
  | cons k names ih =>
    rw [List.mem_cons, not_or] at h
    obtain ⟨hk, h⟩ := h
    rcases data with _ | ⟨_ | d, data⟩
    · rfl
    · exact ih h data
    · have hne : (name == k) = false := beq_eq_false_iff_ne.mpr hk
      rw [entries, List.lookup_cons, hne]
      exact ih h data

theorem lookup_entries_cons {k : List Nat} {names : List (List Nat)} (hk : k ∉ names) (d : Option Datum)
    (data : List (Option Datum)) (name : List Nat) :
    (entries (k :: names) (d :: data)).lookup name = if name = k then d else (entries names data).lookup name := by
  cases d with
  | none =>
    rw [entries]
    split
    · next heq => rw [heq, lookup_entries_of_not_mem hk]
    · rfl
  | some d =>
    rw [entries, List.lookup_cons]
    split
    · next heq => rw [if_pos (beq_iff_eq.mp heq)]
    · next heq => rw [if_neg (beq_eq_false_iff_ne.mp heq)]

theorem entries_inj {names : List (List Nat)} (hnodup : names.Nodup) {xs ys : List (Option Datum)}
    (hx : xs.length = names.length) (hy : ys.length = names.length)
    (h : ∀ name, (entries names xs).lookup name = (entries names ys).lookup name) : xs = ys := by
  induction names generalizing xs ys with
  | nil => rw [List.length_eq_zero_iff.mp hx, List.length_eq_zero_iff.mp hy]
  | cons k names ih =>
    obtain ⟨hk, hnodup⟩ := List.nodup_cons.mp hnodup
    obtain ⟨x, xs, rfl⟩ := List.exists_cons_of_length_eq_add_one hx
    obtain ⟨y, ys, rfl⟩ := List.exists_cons_of_length_eq_add_one hy
    have hfirst := h k
    rw [lookup_entries_cons hk, lookup_entries_cons hk, if_pos rfl, if_pos rfl] at hfirst
    have hrest (name : List Nat) : (entries names xs).lookup name = (entries names ys).lookup name := by
      by_cases heq : name = k
      · rw [heq, lookup_entries_of_not_mem hk, lookup_entries_of_not_mem hk]
      · have hname := h name
        rwa [lookup_entries_cons hk, lookup_entries_cons hk, if_neg heq, if_neg heq] at hname
    rw [hfirst, ih hnodup (by simpa using hx) (by simpa using hy) hrest]

theorem datum_present (names : List String) (values : List (Option Value)) :
    (present (names.zip values)).datum =
      .object fun name => (entries (names.map Text.units) (values.map (Option.map Value.datum))).lookup name := by
  rw [present, Value.datum_object]
  refine congrArg Datum.object (funext fun name => congrArg (List.lookup name) ?_)
  induction names generalizing values with
  | nil => rfl
  | cons k names ih =>
    rcases values with _ | ⟨_ | v, values⟩
    · rfl
    · exact ih values
    · exact congrArg (List.cons _) (ih values)

theorem datum_present_eq_iff {names : List String} (hnodup : (names.map Text.units).Nodup) {xs ys : List (Option Value)}
    (hx : xs.length = names.length) (hy : ys.length = names.length) :
    (present (names.zip xs)).datum = (present (names.zip ys)).datum ↔
      xs.map (Option.map Value.datum) = ys.map (Option.map Value.datum) := by
  rw [datum_present, datum_present]
  constructor
  · intro h
    exact entries_inj hnodup (by simpa using hx) (by simpa using hy) (congrFun (Datum.object.inj h))
  · intro h
    rw [h]

/-! ## Values where any value may stand -/

def Datum.unlessNull : Datum → Option Datum
  | .null => none
  | d => some d

theorem Datum.unlessNull_inj {d e : Datum} : d.unlessNull = e.unlessNull ↔ d = e := by
  constructor
  · intro h
    cases d <;> cases e <;> first | rfl | exact Option.some.inj h | cases h
  · intro h
    rw [h]

theorem Value.map_datum_unlessNull {v : Value} (h : v.isFinite = true) :
    v.unlessNull.map Value.datum = v.datum.unlessNull := by
  by_cases hnull : v = .null
  · rw [hnull]
    rfl
  · have hvalue : v.unlessNull = some v := by
      cases v <;> first | exact absurd rfl hnull | exact congrArg some (Value.finitePart_of_isFinite h)
    have hdatum : v.datum.unlessNull = some v.datum := by
      rcases v with _ | _ | (_ | _) | _ | _ | _ | _ <;> first | exact absurd rfl hnull | rfl
    rw [hvalue, hdatum, Option.map_some]

/-! ## From the written rule to the provision -/

theorem Operator.units_name_inj {a b : Operator} : Text.units a.name = Text.units b.name ↔ a = b := by
  constructor
  · intro h
    cases a <;> cases b <;> first | rfl | exact absurd h (by decide)
  · intro h
    rw [h]

theorem ActionType.units_name_inj {a b : ActionType} : Text.units a.name = Text.units b.name ↔ a = b := by
  constructor
  · intro h
    cases a <;> cases b <;> first | rfl | exact absurd h (by decide)
  · intro h
    rw [h]

theorem RuleType.units_name_inj {a b : RuleType} : Text.units a.name = Text.units b.name ↔ a = b := by
  constructor
  · intro h
    cases a <;> cases b <;> first | rfl | exact absurd h (by decide)
  · intro h
    rw [h]

namespace Condition

theorem branch_eq_iff {as bs : Option (List Condition)}
    (h : ∀ c ∈ children as, ∀ d ∈ children bs, c.content.datum = d.content.datum ↔ c.clause = d.clause) :
    (branchContent as).map Value.datum = (branchContent bs).map Value.datum ↔ branchClauses as = branchClauses bs := by
  rw [branchContent_eq, branchContent_eq, branchClauses_eq, branchClauses_eq]
  cases as with
  | none => cases bs <;> simp
  | some cs =>
    cases bs with
    | none => simp
    | some ds =>
      simp only [Option.map_some, Option.some.injEq, Value.datum_list, Datum.list.injEq, List.map_map]
      exact ⟨fun heq => Value.map_eq_of_map_eq heq fun c hc d hd => (h c hc d hd).mp,
        fun heq => Value.map_eq_of_map_eq heq fun c hc d hd => (h c hc d hd).mpr⟩

theorem content_node (field : String) (operator : Operator) (bound : Value) (all any : Option (List Condition)) :
    content (.node field operator bound all any) = present (["field", "operator", "value", "and", "or"].zip
      [some (.text field), some (.text operator.name), bound.unlessNull, branchContent all, branchContent any]) := rfl

theorem clause_eq_iff {c d : Condition} (hc : ∀ x ∈ c.comparisons, x.bound.isFinite = true)
    (hd : ∀ x ∈ d.comparisons, x.bound.isFinite = true) : c.content.datum = d.content.datum ↔ c.clause = d.clause := by
  induction c using induct generalizing d with
  | node field operator bound all any hall hany =>
    obtain ⟨field', operator', bound', all', any'⟩ := d
    simp only [mem_comparisons_node] at hc hd
    have hall' := branch_eq_iff fun c hmem d hmem' =>
      hall c hmem (fun x hx => hc x (Or.inr (Or.inl ⟨c, hmem, hx⟩))) (d := d)
        fun x hx => hd x (Or.inr (Or.inl ⟨d, hmem', hx⟩))
    have hany' := branch_eq_iff fun c hmem d hmem' =>
      hany c hmem (fun x hx => hc x (Or.inr (Or.inr ⟨c, hmem, hx⟩))) (d := d)
        fun x hx => hd x (Or.inr (Or.inr ⟨d, hmem', hx⟩))
    have hbound := Value.map_datum_unlessNull (hc _ (Or.inl rfl))
    have hbound' := Value.map_datum_unlessNull (hd _ (Or.inl rfl))
    -- What is left out has its place all the same, so that both nodes are compared place by place.
    rw [content_node, content_node, datum_present_eq_iff (by decide) rfl rfl]
    simp only [List.map_cons, List.map_nil, List.cons.injEq, and_true, Option.map_some, Option.some.injEq, hbound,
      hbound', Datum.unlessNull_inj, hall', hany', Value.datum, Datum.text.injEq, Operator.units_name_inj, clause,
      Clause.node.injEq]

end Condition

theorem map_datum_text_inj {a b : Option String} :
    (a.map Value.text).map Value.datum = (b.map Value.text).map Value.datum ↔ a.map Text.units = b.map Text.units := by
  have htext (o : Option String) : (o.map Value.text).map Value.datum = (o.map Text.units).map Datum.text := by
    cases o <;> rfl
  rw [htext, htext, (Option.map_injective fun _ _ => Datum.text.inj).eq_iff]

theorem map_datum_float_inj {a b : Option Double} :
    (a.map Value.float).map Value.datum = (b.map Value.float).map Value.datum ↔
      a.map Binary.ofFloat = b.map Binary.ofFloat := by
  have hfloat (o : Option Double) : (o.map Value.float).map Value.datum = (o.map Binary.ofFloat).map Datum.double := by
    cases o <;> rfl
  rw [hfloat, hfloat, (Option.map_injective fun _ _ => Datum.double.inj).eq_iff]

theorem Action.content_eq (a : Action) : a.content = present
    (["type", "target_credential_id", "target_property", "target_property_value", "boost_amount", "penalty_amount",
      "reason"].zip [some (.text a.type.name), a.target.map .text, a.property.map .text, a.propertyValue.unlessNull,
      a.boost.map .float, a.penalty.map .float, some (.text a.reason)]) := rfl

theorem Action.effect_eq_iff {a b : Action} (ha : a.propertyValue.isFinite = true)
    (hb : b.propertyValue.isFinite = true) : a.content.datum = b.content.datum ↔ a.effect = b.effect := by
  rw [content_eq, content_eq, datum_present_eq_iff (by decide) rfl rfl]
  simp only [List.map_cons, List.map_nil, List.cons.injEq, and_true, Option.map_some, Option.some.injEq,
    Value.map_datum_unlessNull ha, Value.map_datum_unlessNull hb, Datum.unlessNull_inj, map_datum_text_inj,
    map_datum_float_inj, Value.datum, Datum.text.injEq, ActionType.units_name_inj, effect, Effect.mk.injEq]

theorem Rule.content_eq (r : Rule) : r.content = present (["id", "type", "priority", "condition", "action"].zip
    [some (.text r.id), some (.text r.type.name), some (.int r.priority), some r.condition.content,
      some r.action.content]) := rfl

theorem Rule.provision_eq_iff {r s : Rule} (hr : ∀ v ∈ r.freeValues, v.isFinite = true)
    (hs : ∀ v ∈ s.freeValues, v.isFinite = true) : r.content.datum = s.content.datum ↔ r.provision = s.provision := by
  simp only [freeValues, List.forall_mem_append, List.forall_mem_map, List.forall_mem_singleton] at hr hs
  rw [content_eq, content_eq, datum_present_eq_iff (by decide) rfl rfl]
  simp only [List.map_cons, List.map_nil, List.cons.injEq, and_true, Option.map_some, Option.some.injEq,
    Condition.clause_eq_iff hr.1 hs.1, Action.effect_eq_iff hr.2 hs.2, Value.datum, Value.int, Number.datum,
    Datum.text.injEq, Datum.int.injEq, RuleType.units_name_inj, provision, Provision.mk.injEq]

end WalletRouting
