import WalletRouting.Policy.Baseline
import WalletRouting.Policy.Gate
import WalletRouting.Proofs.Ordered
import WalletRouting.Proofs.Policy.Tree
import WalletRouting.Proofs.Ruling.Parts
import WalletRouting.Proofs.Run.Selection

/-! # Gates as conditions

A rule that is gated on a field of the instrument may ask for the field in its condition instead. The gate has a
comparison of its own, but where it lets an instrument through the operator of the condition holds; and a rule that does
nothing to an instrument because of its gate does nothing to one that it does not meet.
-/
namespace WalletRouting
set_option autoImplicit false

namespace Action

/-- What a gate with this value asks: to lie within the first bound that the value sets, or to equal the value if it sets
none. -/
def asked (v : Value) : Operator × Value :=
  match v with
  | .object members =>
    let bounds : List Operator := [.gt, .lt, .gte, .lte]
    (bounds.findSome? fun op => (Keyed.get? op.name members).map fun limit => (op, limit)).getD (.eq, v)
  | v => (.eq, v)

theorem asked_object (members : Keyed Value) :
    asked (.object members) =
      ((Bound.first? members).map fun x => (x.1.operator, x.2)).getD (.eq, .object members) := by
  unfold Bound.first?
  rw [List.map_findSome?]
  change Option.getD (List.findSome? _ (Bound.all.map Bound.operator)) _ = _
  rw [List.findSome?_map]
  congr 2
  funext b
  rw [Function.comp_apply, Function.comp_apply, Option.map_map]
  rfl

theorem meets_eq_holds (r : Reading) (v : Value) : meets r v = (asked v).1.holds r (asked v).2 := by
  cases r with
  | missing => exact (Operator.holds_missing _ _).symm
  | bonus | value =>
    cases v with
    | object members =>
      rw [asked_object]
      unfold meets
      dsimp only
      cases Bound.first? members with
      | none => rfl
      | some x => rcases x with ⟨_ | _ | _ | _, limit⟩ <;> rfl
    | _ => rfl

end Action

theorem Field.resolve_eq_trait {name : String} (h : InstrumentField.named.has name = true) (t : Transaction)
    (i : Instrument) (u : User) : resolve name t i u = i.trait name := by
  have halone : ∀ name ∈ InstrumentField.named.keys,
      TransactionField.named.get? name = none ∧ DerivedField.named.get? name = none := by decide +kernel
  obtain ⟨f, hf⟩ := Option.isSome_iff_exists.mp h
  obtain ⟨htransaction, hderived⟩ := halone name (Keyed.mem_keys_iff.mpr ⟨f, hf⟩)
  rw [resolve, htransaction, hderived, hf, Instrument.trait, hf]

namespace Rule

/-- The rule without its gate, of which its condition asks what the gate on the field asked. -/
def ungated (field : String) (r : Rule) : Rule :=
  let asked := Action.asked r.action.propertyValue
  { r with
    condition := .node field asked.1 asked.2 (some [r.condition]) none
    action := { r.action with property := none, propertyValue := .null } }

variable {r : Rule} {field : String}

theorem targets_of_gate (hgate : r.action.property = some field) (hfield : InstrumentField.named.has field = true)
    (i : Instrument) : r.action.targets i = Action.meets (i.trait field) r.action.propertyValue := by
  have hname : field ≠ "" := by
    rintro rfl
    exact absurd hfield (by decide)
  rw [Action.targets, hgate]
  exact if_neg hname

theorem holds_ungated (hgate : r.action.property = some field) (hfield : InstrumentField.named.has field = true)
    (t : Transaction) (i : Instrument) (u : User) :
    (r.ungated field).condition.holds t i u = (r.action.targets i && r.condition.holds t i u) := by
  rw [targets_of_gate hgate hfield, Action.meets_eq_holds, ← Field.resolve_eq_trait hfield t i u]
  rw [ungated, Condition.holds, Condition.evaluate_node]
  exact congrArg (_ && ·) (Bool.and_true _)

/-- What a closed gate keeps from happening does not happen either to what is not met. -/
theorem hit_ungated (htype : r.action.type = .exclude ∨ r.action.type = .boost ∨ r.action.type = .penalize)
    (field : String) (names : Keyed String) (tally : Ruling.Tally) (i : Instrument) :
    Ruling.hit r names tally i = if r.action.targets i then Ruling.hit (r.ungated field) names tally i else tally := by
  have hkept : (r.ungated field).action.type = r.action.type := rfl
  unfold Ruling.hit
  rw [hkept]
  rcases htype with htype | htype | htype
  · rw [htype]
    rfl
  · rw [htype]
    rfl
  · rw [htype]
    rfl

end Rule

/-! ## Rules that stand for one another -/

namespace Ruling

variable {t : Transaction} {u : User} {instruments : List Instrument} {now : Int} {r r' : Rule}

/-- The rules take part at the same place, and the same comes of what they meet. -/
structure StandsFor (t : Transaction) (u : User) (instruments : List Instrument) (now : Int) (r r' : Rule) : Prop where
  priority : r'.priority = r.priority
  enabled : r'.enabled = r.enabled
  expired : r'.expired now = r.expired now
  met : ∀ tally, (hits r' t u instruments).foldl (hit r' []) tally = (hits r t u instruments).foldl (hit r []) tally

theorem StandsFor.refl (r : Rule) : StandsFor t u instruments now r r := ⟨rfl, rfl, rfl, fun _ => rfl⟩

theorem current_forall₂ {rules rules' : List Rule} (h : List.Forall₂ (StandsFor t u instruments now) rules rules') :
    List.Forall₂ (StandsFor t u instruments now) (Rule.current now rules) (Rule.current now rules') := by
  have henabled : List.Forall₂ (StandsFor t u instruments now) (rules.filter fun r => r.enabled)
      (rules'.filter fun r => r.enabled) := List.rel_filter (fun r r' h => by simp only [h.enabled]) h
  have hactive : List.Forall₂ (StandsFor t u instruments now) (Rule.active rules) (Rule.active rules') :=
    Ordered.sort_forall₂ (fun a b a' b' ha hb => by rw [Rule.priorityLe, Rule.priorityLe, ha.priority, hb.priority])
      henabled
  exact List.rel_filter (fun r r' h => by simp only [h.expired]) hactive

theorem tallyOf_encounters (rules : List Rule) :
    tallyOf (encounters rules t instruments u now) =
      (Rule.current now rules).foldl (fun tally r => (hits r t u instruments).foldl (hit r []) tally) ⟨{}, []⟩ := by
  rw [tallyOf, encounters, List.foldl_flatMap]
  simp only [List.foldl_map]
  rfl

theorem tallyOf_congr {rules rules' : List Rule} (h : List.Forall₂ (StandsFor t u instruments now) rules rules') :
    tallyOf (encounters rules' t instruments u now) = tallyOf (encounters rules t instruments u now) := by
  rw [tallyOf_encounters, tallyOf_encounters]
  have hcurrent := current_forall₂ h
  generalize (⟨{}, []⟩ : Tally) = start
  generalize Rule.current now rules = order at hcurrent ⊢
  generalize Rule.current now rules' = order' at hcurrent ⊢
  induction hcurrent generalizing start with
  | nil => rfl
  | cons hr _ ih => rw [List.foldl_cons, List.foldl_cons, hr.met, ih]

/-- Rules may stand for one another: nothing changes but what is told of each. -/
theorem evaluate_congr {rules rules' : List Rule} (h : List.Forall₂ (StandsFor t u instruments now) rules rules') :
    { evaluate rules' t instruments u now with
      matched := (evaluate rules t instruments u now).matched
      failed := (evaluate rules t instruments u now).failed } = evaluate rules t instruments u now := by
  have hencounters : ofEncounters (encounters rules' t instruments u now) =
      ofEncounters (encounters rules t instruments u now) := by
    rw [ofEncounters, tallyOf_congr h, ofEncounters]
  refine eq_of_parts ?_ ?_ rfl rfl
  · rw [decided_evaluate, ← hencounters, ← decided_evaluate]
    rfl
  · rw [evaluate_names rules, forcedId_evaluate, ← hencounters, ← forcedId_evaluate]
    exact evaluate_names rules' t instruments u now

theorem hits_ungated {field : String} (hgate : r.action.property = some field)
    (hfield : InstrumentField.named.has field = true) :
    hits (r.ungated field) t u instruments = (hits r t u instruments).filter fun i => r.action.targets i := by
  rw [hits, hits, List.filter_filter]
  refine List.filter_congr fun i _ => ?_
  rw [Rule.holds_ungated hgate hfield, Bool.and_left_comm]

theorem standsFor_ungated {field : String}
    (htype : r.action.type = .exclude ∨ r.action.type = .boost ∨ r.action.type = .penalize)
    (hgate : r.action.property = some field) (hfield : InstrumentField.named.has field = true) :
    StandsFor t u instruments now r (r.ungated field) where
  priority := rfl
  enabled := rfl
  expired := rfl
  met tally := by
    have hhit (names : Keyed String) (tally : Tally) (i : Instrument) :=
      Rule.hit_ungated htype field names tally i
    rw [hits_ungated hgate hfield]
    refine (foldl_project (fun tally => tally) (fun i => r.action.targets i) (hit (r.ungated field) []) (hit r []) ?_ ?_
      (hits r t u instruments) tally).symm
    · intro tally i htargets
      rw [hhit, if_pos htargets]
    · intro tally i hcloses
      rw [hhit, if_neg (Bool.eq_false_iff.mp hcloses)]

end Ruling

end WalletRouting
