import WalletRouting.Proofs.Registry.Independence
import WalletRouting.Proofs.Run.Scope

/-! # Edits by several hands

Operations that edit different rules leave the same registry in either order. Each of them succeeds in both orders or in
neither, unless one leaves rules that cannot be written: an edit stores these before it fails, and whoever comes later
fails over them as well.
-/
namespace WalletRouting
set_option autoImplicit false

namespace Registry

variable {r : Registry} {p : PolicyVersion}

theorem find_rewritten (hfind : r.find r.current = .ok p) (rules : List Rule) :
    (r.rewritten rules).find (r.rewritten rules).current = .ok (p.withRules rules) := by
  have hversions : ∀ p, (PolicyVersion.withRules rules p).version = p.version := fun _ => rfl
  have hcurrent : (r.rewritten rules).current = r.current := rfl
  rw [hcurrent]
  simp only [find, rewritten, find?_replaceFirst_self hversions, find_eq_ok hfind, Option.map_some]

theorem rewritten_rewritten (rules more : List Rule) :
    (r.rewritten rules).rewritten more =
      { r with
        versions := replaceFirst r.current (fun p => (PolicyVersion.withRules rules p).withRules more) r.versions } := by
  have hversions : ∀ p, (PolicyVersion.withRules rules p).version = p.version := fun _ => rfl
  exact congrArg (fun versions => { r with versions := versions })
    (replaceFirst_replaceFirst hversions (PolicyVersion.withRules more))

theorem rewritten_congr (hfind : r.find r.current = .ok p) {left right rules : List Rule}
    (h : (p.withRules left).withRules rules = (p.withRules right).withRules rules) :
    (r.rewritten left).rewritten rules = (r.rewritten right).rewritten rules := by
  have hversions := replaceFirst_congr (f := fun q => (PolicyVersion.withRules left q).withRules rules)
    (g := fun q => (PolicyVersion.withRules right q).withRules rules) (find_eq_ok hfind) h
  rw [rewritten_rewritten, rewritten_rewritten, hversions]

theorem rewritten_back (hfind : r.find r.current = .ok p) {rules : List Rule}
    (h : (p.withRules rules).withRules p.rules = p) : (r.rewritten rules).rewritten p.rules = r := by
  have hversions := replaceFirst_self (f := fun q => (PolicyVersion.withRules rules q).withRules p.rules)
    (find_eq_ok hfind) h
  rw [rewritten_rewritten, hversions]

end Registry

def Rule.areWritable (rules : List Rule) : Bool := (rules.findSome? writeError?).isNone

theorem Rule.areWritable_iff {rules : List Rule} : areWritable rules = true ↔ ∀ r ∈ rules, r.writeError? = none := by
  simp only [areWritable, Option.isNone_iff_eq_none, List.findSome?_eq_none_iff]

namespace PolicyVersion

theorem writeError?_withRules (rules : List Rule) (p : PolicyVersion) :
    (p.withRules rules).writeError?.isNone = Rule.areWritable rules := rfl

/-- Which rules a version held before shows at most where one time they could be written and then could not. -/
theorem withRules_withRules {left right rules : List Rule} (p : PolicyVersion)
    (hleft : Rule.areWritable left = Rule.areWritable rules) (hright : Rule.areWritable right = Rule.areWritable rules) :
    (p.withRules left).withRules rules = (p.withRules right).withRules rules := by
  simp only [Rule.areWritable] at hleft hright
  simp only [withRules, hleft, hright]
  -- The signatures are not to be compared: that would be to compute them.
  cases (rules.findSome? Rule.writeError?).isNone with
  | true => simp only [if_true]
  | false => simp only [Bool.false_eq_true, if_false]

theorem withRules_back {p : PolicyVersion} {rules : List Rule} (hsigned : sign p.rules = .ok p.signature) :
    (p.withRules rules).withRules p.rules = p := by
  obtain ⟨hwritable, hsignature⟩ := sign_eq_ok_iff.mp hsigned
  have hnone : p.rules.findSome? Rule.writeError? = none := hwritable
  simp only [withRules, hnone, Option.isNone_none, if_true, ← hsignature]

end PolicyVersion

namespace Operation

/-- The version that an operation on rules leaves, also where it then fails because the version cannot be written. -/
def leaves? (o : Operation) (r : Registry) : Option PolicyVersion :=
  match o with
  | .add rule => (r.addRule rule).toOption.map Prod.fst
  | .update id updates => (r.updateRule id updates).toOption.map Prod.fst
  | .remove id => (r.removeRule id).toOption.map Prod.fst
  | .reorder ids => (r.reorderRules ids).toOption.map Prod.fst
  | .pin _ | .cache .. | .fetch .. | .reset | .run .. => none

/-- Done in either order, the operations leave the same world, and each succeeds in both orders or in neither. -/
structure Commute (a b : Operation) (w : World) : Prop where
  world : applyAll [a, b] w = applyAll [b, a] w
  left : (a.apply w).1.isOk = (a.apply (b.apply w).2).1.isOk
  right : (b.apply w).1.isOk = (b.apply (a.apply w).2).1.isOk

/-- If both operations are carried out, what they leave can be written after either of them and after both, or it can
never be. -/
def Even (a b : Operation) (w : World) : Prop :=
  ∀ p q s, a.leaves? w.registry = some p → b.leaves? w.registry = some q →
    b.leaves? (a.apply w).2.registry = some s →
      p.writeError?.isNone = s.writeError?.isNone ∧ q.writeError?.isNone = s.writeError?.isNone

structure Makes (o : Operation) (e : Edit) : Prop where
  apply : ∀ w, o.apply w = w.edited (w.registry.edit e)
  leaves : ∀ r, o.leaves? r = (r.edit e).toOption.map Prod.fst

namespace Makes

variable {o : Operation} {e : Edit} {w : World} {p : PolicyVersion}

theorem refused (h : o.Makes e) {x : RegistryError} (hedit : w.registry.edit e = .error x) :
    (o.apply w).1.isOk = false ∧ (o.apply w).2 = w ∧ o.leaves? w.registry = none := by
  rw [h.apply, h.leaves, hedit]
  exact ⟨rfl, rfl, rfl⟩

theorem done (h : o.Makes e) (hfind : w.registry.find w.registry.current = .ok p) {rules : List Rule}
    (he : e p = .ok rules) :
    (o.apply w).1.isOk = Rule.areWritable rules ∧ (o.apply w).2 = w.withRegistry (w.registry.rewritten rules) ∧
      o.leaves? w.registry = some (p.withRules rules) := by
  rw [h.apply, h.leaves, Registry.edit_of_find hfind, he, ← PolicyVersion.writeError?_withRules rules p]
  simp only [Except.map, World.edited]
  cases (p.withRules rules).writeError? with
  | none => exact ⟨rfl, rfl, rfl⟩
  | some x => exact ⟨rfl, rfl, rfl⟩

theorem of_done (h : o.Makes e) (hdone : (o.apply w).1.isOk = true) :
    ∃ p rules, w.registry.find w.registry.current = .ok p ∧ e p = .ok rules ∧ Rule.areWritable rules = true := by
  cases hedit : w.registry.edit e with
  | error x => cases (h.refused hedit).1.symm.trans hdone
  | ok made =>
    obtain ⟨p, rules, hfind, hrules, -⟩ := Registry.edit_ok hedit
    exact ⟨p, rules, hfind, hrules, (h.done hfind hrules).1.symm.trans hdone⟩

end Makes

theorem applyAll_pair (a b : Operation) (w : World) : applyAll [a, b] w = (b.apply (a.apply w).2).2 := rfl

theorem Commute.symm {a b : Operation} {w : World} (h : Commute a b w) : Commute b a w :=
  ⟨h.world.symm, h.right, h.left⟩

section Independent

variable {a b : Operation} {ea eb : Edit} {w : World} (ha : a.Makes ea) (hb : b.Makes eb)
  (hindependent : Edit.Independent ea eb)

include ha hb hindependent

theorem commute_of_refused {x : RegistryError} (hedit : w.registry.edit ea = .error x) : Commute a b w := by
  obtain ⟨hfails, hsame, -⟩ := ha.refused hedit
  have hafter : (a.apply (b.apply w).2).1.isOk = false ∧ (a.apply (b.apply w).2).2 = (b.apply w).2 := by
    cases hother : w.registry.edit eb with
    | error y =>
      rw [(hb.refused hother).2.1]
      exact ⟨hfails, hsame⟩
    | ok made =>
      obtain ⟨p, right, hfind, hright, -⟩ := Registry.edit_ok hother
      have hleft : ea p = .error x := by
        cases hleft : ea p <;> simp [Registry.edit_of_find hfind, hleft, Except.map] at hedit ⊢
        exact hedit
      rw [(hb.done hfind hright).2.1]
      have hstill : (w.registry.rewritten right).edit ea = .error x := by
        rw [Registry.edit_of_find (Registry.find_rewritten hfind right), hindependent.right_only hright hleft]
        rfl
      obtain ⟨hfails, hsame, -⟩ := ha.refused (w := w.withRegistry (w.registry.rewritten right)) hstill
      exact ⟨hfails, hsame⟩
  constructor
  · rw [applyAll_pair, applyAll_pair, hsame, hafter.2]
  · exact hfails.trans hafter.1.symm
  · rw [hsame]

/-- Where both are carried out, it is a matter of which rules can be written. -/
theorem exists_outcomes {p : PolicyVersion} {left right : List Rule}
    (hfind : w.registry.find w.registry.current = .ok p) (hleft : ea p = .ok left) (hright : eb p = .ok right) :
    ∃ rules, (∀ r ∈ rules, r ∈ left ∨ r ∈ right) ∧
      (Commute a b w ↔ Rule.areWritable left = Rule.areWritable rules ∧ Rule.areWritable right = Rule.areWritable rules) ∧
        (Even a b w ↔
          Rule.areWritable left = Rule.areWritable rules ∧ Rule.areWritable right = Rule.areWritable rules) := by
  obtain ⟨rules, hbAfter, haAfter, hmem⟩ := hindependent.both hleft hright
  obtain ⟨haOk, haWorld, haLeaves⟩ := ha.done hfind hleft
  obtain ⟨hbOk, hbWorld, hbLeaves⟩ := hb.done hfind hright
  obtain ⟨hbOk', hbWorld', hbLeaves'⟩ := hb.done (w := w.withRegistry (w.registry.rewritten left))
    (Registry.find_rewritten hfind left) hbAfter
  obtain ⟨haOk', haWorld', -⟩ := ha.done (w := w.withRegistry (w.registry.rewritten right))
    (Registry.find_rewritten hfind right) haAfter
  rw [← haWorld] at hbOk' hbWorld' hbLeaves'
  rw [← hbWorld] at haOk' haWorld'
  refine ⟨rules, hmem, ?_, ?_⟩
  · constructor
    · intro h
      exact ⟨haOk.symm.trans (h.left.trans haOk'), hbOk.symm.trans (h.right.trans hbOk')⟩
    · rintro ⟨hwritable, hwritable'⟩
      constructor
      · rw [applyAll_pair, applyAll_pair, hbWorld', haWorld', haWorld, hbWorld]
        have hregistry := Registry.rewritten_congr hfind (p.withRules_withRules hwritable hwritable')
        exact congrArg w.withRegistry hregistry
      · exact haOk.trans (hwritable.trans haOk'.symm)
      · exact hbOk.trans (hwritable'.trans hbOk'.symm)
  · constructor
    · intro h
      exact h _ _ _ haLeaves hbLeaves hbLeaves'
    · rintro hwritable p q s hp hq hs
      cases haLeaves.symm.trans hp
      cases hbLeaves.symm.trans hq
      cases hbLeaves'.symm.trans hs
      exact hwritable

theorem commute_iff_even : Commute a b w ↔ Even a b w := by
  cases hedit : w.registry.edit ea with
  | error x =>
    have hleaves := (ha.refused hedit).2.2
    constructor
    · intro _ p q s hp
      cases hleaves.symm.trans hp
    · intro _
      exact commute_of_refused ha hb hindependent hedit
  | ok made =>
    obtain ⟨p, left, hfind, hleft, -⟩ := Registry.edit_ok hedit
    cases hother : w.registry.edit eb with
    | error y =>
      have hleaves := (hb.refused hother).2.2
      constructor
      · intro _ p q s _ hq
        cases hleaves.symm.trans hq
      · intro _
        exact (commute_of_refused hb ha hindependent.symm hother).symm
    | ok made' =>
      obtain ⟨p', right, hfind', hright, -⟩ := Registry.edit_ok hother
      cases hfind.symm.trans hfind'
      obtain ⟨rules, -, hcommute, heven⟩ := exists_outcomes ha hb hindependent hfind hleft hright
      exact hcommute.trans heven.symm

/-- Rules that can be written in either part can be written together. -/
theorem commute_of_done (hleft : (a.apply w).1.isOk = true) (hright : (b.apply w).1.isOk = true) : Commute a b w := by
  obtain ⟨p, left, hfind, hleft, hwritable⟩ := ha.of_done hleft
  obtain ⟨p', right, hfind', hright, hwritable'⟩ := hb.of_done hright
  cases hfind.symm.trans hfind'
  obtain ⟨rules, hmem, hcommute, -⟩ := exists_outcomes ha hb hindependent hfind hleft hright
  have hrules : Rule.areWritable rules = true := by
    rw [Rule.areWritable_iff] at hwritable hwritable' ⊢
    intro r hr
    rcases hmem r hr with hr | hr
    · exact hwritable r hr
    · exact hwritable' r hr
  exact hcommute.mpr ⟨hwritable.trans hrules.symm, hwritable'.trans hrules.symm⟩

end Independent

/-- An operation that revises rules of an id without giving them another, or removes one. -/
inductive Revises (id : String) : Operation → Prop where
  | update {updates : Keyed Value} (hkeeps : Edit.KeepsId id updates) : Revises id (.update id updates)
  | remove : Revises id (.remove id)

/-- An operation on the rules of one id. -/
inductive Concerns (id : String) : Operation → Prop where
  | revises {o : Operation} (h : o.Revises id) : Concerns id o
  | add {rule : Rule} (h : rule.id = id) : Concerns id (.add rule)

theorem remove_makes (id : String) : (remove id).Makes (Edit.amend id fun _ => .ok none) := by
  rw [← Edit.remove_eq_amend]
  exact ⟨fun _ => rfl, fun _ => rfl⟩

theorem update_makes {id : String} {updates : Keyed Value} (hkeeps : Edit.KeepsId id updates) :
    (update id updates).Makes (Edit.amend id (Edit.revisal updates)) := by
  rw [← Edit.update_eq_amend hkeeps]
  exact ⟨fun _ => rfl, fun _ => rfl⟩

theorem add_makes {rule : Rule} (hvalid : rule.isValid = true) : (add rule).Makes (Edit.add rule) := by
  have hadd : ∀ r : Registry, r.addRule rule = r.edit (Edit.add rule) := by
    intro r
    simp only [Registry.addRule, Edit.requireValid, hvalid, if_true, bind, Except.bind]
  constructor
  · intro w
    rw [apply, hadd]
  · intro r
    rw [leaves?, hadd]

theorem add_refused {rule : Rule} (hinvalid : rule.isValid = false) (w : World) :
    ((add rule).apply w).1.isOk = false ∧ ((add rule).apply w).2 = w ∧ (add rule).leaves? w.registry = none := by
  have hadd : w.registry.addRule rule = .error (.invalidRule rule.id rule.defects) := by
    simp [Registry.addRule, Edit.requireValid, hinvalid, bind, Except.bind]
  rw [apply, leaves?, hadd]
  exact ⟨rfl, rfl, rfl⟩

theorem Revises.makes {id : String} {o : Operation} (h : o.Revises id) :
    ∃ f, Edit.Keeps id f ∧ o.Makes (Edit.amend id f) := by
  cases h with
  | update hkeeps => exact ⟨_, Edit.revisal_keeps hkeeps, update_makes hkeeps⟩
  | remove => exact ⟨_, Edit.keeps_none id, remove_makes id⟩

theorem Concerns.makes {id other : String} {a b : Operation} (hne : id ≠ other) (ha : a.Revises id)
    (hb : b.Concerns other) :
    ∃ ea, a.Makes ea ∧
      ((∃ eb, b.Makes eb ∧ Edit.Independent ea eb) ∨ ∃ rule : Rule, rule.isValid = false ∧ b = .add rule) := by
  obtain ⟨f, hf, ha⟩ := ha.makes
  refine ⟨_, ha, ?_⟩
  cases hb with
  | revises hb =>
    obtain ⟨g, hg, hb⟩ := hb.makes
    exact Or.inl ⟨_, hb, Edit.amend_independent hne.symm hf hg⟩
  | @add rule hid =>
    cases hvalid : rule.isValid with
    | true => exact Or.inl ⟨_, add_makes hvalid, Edit.amend_add_independent (hid ▸ hne.symm) hf⟩
    | false => exact Or.inr ⟨rule, hvalid, rfl⟩

theorem commute_of_invalid {a : Operation} {rule : Rule} {w : World} (hinvalid : rule.isValid = false) :
    Commute a (add rule) w ∧ Even a (add rule) w := by
  obtain ⟨hfails, hsame, hleaves⟩ := add_refused hinvalid w
  obtain ⟨hfails', hsame', -⟩ := add_refused hinvalid (a.apply w).2
  constructor
  · constructor
    · rw [applyAll_pair, applyAll_pair, hsame, hsame']
    · rw [hsame]
    · exact hfails.trans hfails'.symm
  · intro p q s _ hq
    cases hleaves.symm.trans hq

section Added

variable {rule : Rule} {w : World}

theorem remove_added (hsigned : ∀ p ∈ w.registry.versions, PolicyVersion.sign p.rules = .ok p.signature)
    (hadded : ((add rule).apply w).1.isOk = true) :
    ((remove rule.id).apply ((add rule).apply w).2).1.isOk = true ∧ applyAll [add rule, remove rule.id] w = w := by
  have hvalid : rule.isValid = true := by
    cases hvalid : rule.isValid with
    | true => rfl
    | false => cases (add_refused hvalid w).1.symm.trans hadded
  obtain ⟨p, rules, hfind, hrules, -⟩ := (add_makes hvalid).of_done hadded
  have hp := hsigned p (Registry.find_mem hfind)
  have hworld := ((add_makes hvalid).done hfind hrules).2.1
  obtain ⟨hfresh, rfl⟩ := Edit.add_ok hrules
  have hremoved := Edit.remove_added hfresh
  rw [Edit.remove_eq_amend] at hremoved
  obtain ⟨hdone, hrestored, -⟩ :=
    (remove_makes rule.id).done (w := w.withRegistry (w.registry.rewritten (p.rules ++ [rule])))
      (Registry.find_rewritten hfind _) hremoved
  rw [applyAll_pair, hworld]
  constructor
  · rw [hdone]
    exact Option.isNone_iff_eq_none.mpr (PolicyVersion.sign_eq_ok_iff.mp hp).1
  · rw [hrestored]
    exact congrArg w.withRegistry (Registry.rewritten_back hfind (PolicyVersion.withRules_back hp))

end Added

end Operation

namespace Sample

def shallowRule : Rule :=
  Baseline.rule "rule_shallow" "Shallow" .soft 11 (Baseline.compare "category" .eq (.text "dining"))
    (Baseline.boost 1 "r")

theorem baseline_signed : ∀ p ∈ baseline.registry.versions, PolicyVersion.sign p.rules = .ok p.signature := by
  intro p hp
  have hwritable : ∀ p ∈ baseline.registry.versions, p.writeError? = none := by decide +kernel
  exact (Baseline.versions_current _ p hp).sign_iff.mpr (hwritable p hp)

end Sample

namespace Operation

end Operation

end WalletRouting
