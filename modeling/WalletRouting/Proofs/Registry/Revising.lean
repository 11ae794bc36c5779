import WalletRouting.Proofs.Registry.Independence
import WalletRouting.Proofs.Registry.Signing
import WalletRouting.Proofs.Run.Signing

/-! # What revising a rule changes

A rule is revised by writing its members, laying the updates over them and reading the result. What no update names is
read as it was written, so it stays as it was, down to the last value of a condition; what an update names is what is read
of the update. The other rules stay where and what they were.
-/
namespace WalletRouting
set_option autoImplicit false

open Schema

/-- A member is what is read of its update, or without one what it was. -/
def Takes {α : Type} (updates : Keyed Value) (name : String) (read : Read α) (old new : α) : Prop :=
  match updates.get? name with
  | some v => read v = .ok new
  | none => new = old

theorem Takes.of_unnamed {α : Type} {updates : Keyed Value} {name : String} {read : Read α} {old new : α}
    (h : Takes updates name read old new) (hnone : updates.get? name = none) : new = old := by
  unfold Takes at h
  rw [hnone] at h
  exact h

/-- One rule is another with updates. A snippet that no update gives goes with the condition or the action. -/
structure Rule.Revises (updates : Keyed Value) (old new : Rule) : Prop where
  id : Takes updates "id" text old.id new.id
  label : Takes updates "label" text old.label new.label
  type : Takes updates "type" (member RuleType.named .unknownMember) old.type new.type
  priority : Takes updates "priority" integer old.priority new.priority
  enabled : Takes updates "enabled" flag old.enabled new.enabled
  expiry : Takes updates "expiry" (nullable integer) old.expiry new.expiry
  condition : Takes updates "condition" Condition.read old.condition new.condition
  action : Takes updates "action" Action.read old.action new.action
  compiled : Takes updates "compiled_dsl" (nullable text)
    (if updates.has "condition" || updates.has "action" then none else old.compiled) new.compiled

namespace Edit

variable {updates : Keyed Value} {old new : Rule}

theorem get?_overlay {name : String} (hname : name ≠ "compiled_dsl") :
    (overlay updates old).get? name = ((Keyed.ofPairs updates).get? name).or (old.exactMembers.get? name) := by
  rw [← Keyed.get?_update_ofPairs, overlay]
  split
  · exact Keyed.get?_put_of_ne hname _ _
  · rfl

theorem get?_overlay_compiled :
    (overlay updates old).get? "compiled_dsl" = ((Keyed.ofPairs updates).get? "compiled_dsl").or
      (some (.ofOption .text
        (if (Keyed.ofPairs updates).has "condition" || (Keyed.ofPairs updates).has "action" then none
          else old.compiled))) := by
  have hgiven : (Keyed.ofPairs updates).has "compiled_dsl" = updates.has "compiled_dsl" := Keyed.has_ofPairs _ _
  rw [Keyed.has_ofPairs, Keyed.has_ofPairs, overlay]
  unfold Keyed.has at hgiven ⊢
  cases hget : (Keyed.ofPairs updates).get? "compiled_dsl" with
  | some v =>
    rw [hget] at hgiven
    rw [← hgiven, Option.isSome_some, Bool.not_true, Bool.and_false, if_neg Bool.false_ne_true,
      Keyed.get?_update_ofPairs, hget]
    rfl
  | none =>
    rw [hget] at hgiven
    rw [← hgiven, Option.isSome_none, Bool.not_false, Bool.and_true]
    split
    · exact Keyed.get?_put_self _ _ _
    · rw [Keyed.get?_update_ofPairs, hget]
      rfl

theorem takes_of_get? {α : Type} {name : String} {read : Read α} {m : Keyed Value} {v : Value} {a b : α}
    (hget : m.get? name = ((Keyed.ofPairs updates).get? name).or (some v)) (hself : read v = .ok a)
    (hread : ∀ {w}, m.get? name = some w → read w = .ok b) : Takes (Keyed.ofPairs updates) name read a b := by
  unfold Takes
  cases hnamed : (Keyed.ofPairs updates).get? name with
  | some w =>
    rw [hnamed] at hget
    exact hread hget
  | none =>
    rw [hnamed] at hget
    cases (hread hget).symm.trans hself
    rfl

theorem revises_of_readFrom (h : Rule.ReadFrom (overlay updates old) new) (hroom : .tooDeep ∉ old.writeErrors) :
    Rule.Revises (Keyed.ofPairs updates) old new where
  id := takes_of_get? (get?_overlay (by decide)) (text_text old.id) (read_of_required h.id)
  label := takes_of_get? (get?_overlay (by decide)) (text_text old.label) (read_of_required h.label)
  type := takes_of_get? (get?_overlay (by decide)) (Rule.readType_exact old.type) (read_of_required h.type)
  priority := takes_of_get? (get?_overlay (by decide)) (integer_int old.priority) (read_of_optional h.priority)
  enabled := takes_of_get? (get?_overlay (by decide)) (flag_bool old.enabled) (read_of_optional h.enabled)
  expiry := takes_of_get? (get?_overlay (by decide)) (nullable_integer old.expiry) (read_of_optional h.expiry)
  condition :=
    takes_of_get? (get?_overlay (by decide)) (Condition.read_exact fun hdeep => hroom (List.mem_append_left _ hdeep))
      (read_of_required h.condition)
  action := takes_of_get? (get?_overlay (by decide)) (Action.read_exact old.action) (read_of_required h.action)
  compiled := takes_of_get? get?_overlay_compiled (nullable_text _) (read_of_optional h.compiled)

end Edit

/-! ## Signatures -/

/-- What a rule is signed for. -/
def Rule.signedNames : List String := ["id", "type", "priority", "condition", "action"]

namespace Rule.Revises

variable {updates : Keyed Value} {old new : Rule}

theorem signed (h : Revises updates old new) (hunnamed : ∀ name ∈ signedNames, updates.get? name = none) :
    new.content = old.content ∧ new.writeErrors = old.writeErrors := by
  have hid := h.id.of_unnamed (hunnamed "id" (by decide))
  have htype := h.type.of_unnamed (hunnamed "type" (by decide))
  have hpriority := h.priority.of_unnamed (hunnamed "priority" (by decide))
  have hcondition := h.condition.of_unnamed (hunnamed "condition" (by decide))
  have haction := h.action.of_unnamed (hunnamed "action" (by decide))
  unfold content writeErrors
  rw [hid, htype, hpriority, hcondition, haction]
  exact ⟨rfl, rfl⟩

end Rule.Revises

theorem PolicyVersion.signature_withRules {p : PolicyVersion} {rules : List Rule} (hp : p.Current)
    (hcontent : rules.map Rule.content = p.rules.map Rule.content)
    (herrors : rules.findSome? Rule.writeError? = p.rules.findSome? Rule.writeError?) :
    (p.withRules rules).signature = p.signature := by
  have hsigned : Signature.ofRules rules = Signature.ofRules p.rules := by
    unfold Signature.ofRules Signature.canonicalText Value.ofList
    rw [hcontent]
  unfold withRules
  dsimp only
  rw [herrors, hsigned]
  split
  · next hwritable => exact (hp (Option.isNone_iff_eq_none.mp hwritable)).symm
  · rfl

namespace Registry

/-- What an update makes of a registry: of the rules of one version, `old` becomes `new`. -/
structure Updates (id : String) (updates : Keyed Value) (r r' : Registry) (p q : PolicyVersion) (before : List Rule)
    (old new : Rule) (behind : List Rule) : Prop where
  found : r.find r.current = .ok p
  rules : p.rules = before ++ old :: behind
  first : old.id = id ∧ ∀ x ∈ before, x.id ≠ id
  revised : q = { p with rules := before ++ new :: behind, signature := q.signature }
  stored : r' = { r with versions := replaceFirst r.current (fun _ => q) r.versions }
  read : Rule.read (.object old.exactMembers) = .ok old
  revises : Rule.Revises (Keyed.ofPairs updates) old new
  signature : p.Current → (∀ name ∈ Rule.signedNames, updates.has name = false) → q.signature = p.signature

/-- An update that succeeds changes what it names, the snippet that no longer fits, and the signature. -/
theorem updateRule_updates {r r' : Registry} {id : String} {updates : Keyed Value} {q : PolicyVersion}
    (h : r.updateRule id updates = .ok (q, r')) :
    ∃ p before old new behind, Updates id updates r r' p q before old new behind := by
  obtain ⟨p, rules, hfound, hrules, hq, hstored⟩ := edit_ok h
  obtain ⟨old, new, hold, hnew, -, hreplaced⟩ := Edit.update_ok hrules
  obtain ⟨hfind, hroom⟩ := Edit.find_ok hold
  obtain ⟨before, behind, hsplit, hid, hbefore, hplace⟩ := Edit.replaceRule_of_find? hfind new
  have hrevises := Edit.revises_of_readFrom (Rule.readFrom (Edit.revise_ok hnew).1) hroom
  rw [hplace] at hreplaced
  refine ⟨p, before, old, new, behind, hfound, hsplit, ⟨hid, hbefore⟩, ?_, hstored, Rule.read_exact hroom, hrevises, ?_⟩
  · rw [hq, hreplaced]
    rfl
  · intro hcurrent hunnamed
    have hsigned := hrevises.signed fun name hname => by
      rw [← Option.isNone_iff_eq_none, ← Option.isSome_eq_false_iff]
      exact (Keyed.has_ofPairs name updates).trans (hunnamed name hname)
    rw [hq, hreplaced]
    apply PolicyVersion.signature_withRules hcurrent
    · rw [hsplit]
      simp only [List.map_append, List.map_cons, hsigned.1]
    · rw [hsplit]
      simp only [List.findSome?_append, List.findSome?_cons, Rule.writeError?, hsigned.2]

/-- A new label for a rule of the baseline. -/
theorem updateRule_updates_label :
    ∃ q r' p before old new behind,
      Sample.baseline.registry.updateRule "rule_gas_boost" [("label", .text "Fuel")] = .ok (q, r') ∧
        Updates "rule_gas_boost" [("label", .text "Fuel")] Sample.baseline.registry r' p q before old new behind ∧
          new.label = "Fuel" ∧ new.condition = old.condition := by
  have hok : (Sample.baseline.registry.updateRule "rule_gas_boost" [("label", .text "Fuel")]).toOption.isSome = true := by
    decide +kernel
  cases h : Sample.baseline.registry.updateRule "rule_gas_boost" [("label", .text "Fuel")] with
  | error e =>
    rw [h] at hok
    cases hok
  | ok result =>
    obtain ⟨q, r'⟩ := result
    obtain ⟨p, before, old, new, behind, hupdates⟩ := updateRule_updates h
    have hlabel : text (.text "Fuel") = .ok new.label := hupdates.revises.label
    exact ⟨q, r', p, before, old, new, behind, rfl, hupdates, (Checked.ok.inj hlabel).symm,
      hupdates.revises.condition⟩

end Registry

end WalletRouting
