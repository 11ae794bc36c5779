import WalletRouting.Proofs.Registry.Scope
import WalletRouting.Proofs.Run.Operation
import WalletRouting.Proofs.Run.Signing
import WalletRouting.Proofs.Run.World

/-! # How far operations reach

What may happen to a world is a course of operations of some kind, which may hang on the world that they meet; what a run
does by itself is a part of it. An edit of rules reaches the current version only, a run or a fetch only the time of the
last fetch. So what is in force does not change while another version is pinned, whatever is edited and run.
-/
namespace WalletRouting
set_option autoImplicit false

/-! ## Courses of operations -/

namespace World

/-- The worlds that operations of a kind lead to, with readings of the clock, naps and fetches at any time. -/
inductive Course (allowed : Operation → World → Prop) (v : World) : World → Prop where
  | start : Course allowed v v
  | ticked {w : World} (h : Course allowed v w) : Course allowed v { w with clock := w.clock.tick }
  | napped {w : World} (naps : List Double) (h : Course allowed v w) : Course allowed v { w with naps := naps }
  | fetched {w : World} (now : Number) (h : Course allowed v w) :
      Course allowed v { w with registry := w.registry.fetchedAt now }
  | apply {w : World} (o : Operation) (ho : allowed o w) (h : Course allowed v w) : Course allowed v (o.apply w).2

namespace Course

variable {allowed : Operation → World → Prop} {v w : World}

theorem untouched (allowed : Operation → World → Prop) (v : World) : Untouched (Course allowed v) :=
  ⟨fun _ => .ticked, fun _ naps => .napped naps, fun _ now => .fetched now⟩

/-- What runs keep by themselves and every operation of the kind keeps, the course keeps. -/
theorem preserves {P : World → Prop} (hP : Untouched P) (hstep : ∀ o w, allowed o w → P w → P (o.apply w).2)
    (hv : P v) (h : Course allowed v w) : P w := by
  induction h with
  | start => exact hv
  | ticked _ ih => exact hP.ticked _ ih
  | napped naps _ ih => exact hP.napped _ naps ih
  | fetched now _ ih => exact hP.fetched _ now ih
  | apply o ho _ ih => exact hstep o _ ho ih

/-- An observer that only does what the course allows lets a run go on with the course. -/
theorem run {σ : Type} {observer : Observer σ}
    (hafter : ∀ e result kept x, Course allowed v x → Course allowed v (observer.after e result kept x).2.2)
    (h : Course allowed v w) (e : Engine) (t : Transaction) (u : User) (kept : σ) :
    Course allowed v (e.run t u observer kept w).2.2 :=
  Engine.run_preserves (untouched allowed v) hafter h e t u kept

theorem applyAll (os : List Operation) (hos : ∀ o ∈ os, ∀ w, allowed o w) (h : Course allowed v w) :
    Course allowed v (Operation.applyAll os w) := by
  induction os generalizing w with
  | nil => exact h
  | cons o rest ih =>
    exact ih (fun o' ho' => hos o' (List.mem_cons_of_mem o ho')) (h.apply o (hos o List.mem_cons_self w))

end Course

end World

/-! ## What an operation reaches -/

namespace Operation

def editsRules : Operation → Bool
  | .add _ | .update .. | .remove _ | .reorder _ => true
  | .pin _ | .cache .. | .fetch .. | .reset | .run .. => false

def onlyFetches : Operation → Bool
  | .fetch .. | .run .. => true
  | .add _ | .update .. | .remove _ | .reorder _ | .pin _ | .cache .. | .reset => false

variable {o : Operation} {w : World}

theorem edited_cases (w : World) (done : Except RegistryError (PolicyVersion × Registry)) :
    (w.edited done).2 = w ∨ ∃ p r, done = .ok (p, r) ∧ (w.edited done).2 = w.withRegistry r := by
  cases done with
  | error e => exact Or.inl rfl
  | ok made =>
    refine Or.inr ⟨made.1, made.2, rfl, ?_⟩
    simp only [World.edited]
    split <;> rfl

theorem editsRules_cases (h : o.editsRules = true) :
    (o.apply w).2 = w ∨ ∃ rules, (o.apply w).2 = w.withRegistry (w.registry.rewritten rules) := by
  have hedited : ∀ {e : Edit} {done : Except RegistryError (PolicyVersion × Registry)},
      (∀ p r, done = .ok (p, r) → w.registry.edit e = .ok (p, r)) →
        (w.edited done).2 = w ∨ ∃ rules, (w.edited done).2 = w.withRegistry (w.registry.rewritten rules) := by
    intro e done hdone
    rcases edited_cases w done with hsame | ⟨p, r, hok, hstored⟩
    · exact Or.inl hsame
    · obtain ⟨rules, rfl⟩ := Registry.edit_eq_ok (hdone p r hok)
      exact Or.inr ⟨rules, hstored⟩
  cases o with
  | add rule => exact hedited fun p r hok => (Registry.addRule_ok hok).2
  | update id updates => exact hedited fun p r hok => hok
  | remove id => exact hedited fun p r hok => hok
  | reorder ids => exact hedited fun p r hok => hok
  | pin | cache | fetch | reset | run => cases h

theorem editsRules_inside (h : o.editsRules = true) : w.registry.EditedInside (o.apply w).2.registry := by
  rcases editsRules_cases h with hsame | ⟨rules, hstored⟩
  · rw [hsame]
    exact .refl _
  · rw [hstored]
    exact Registry.rewritten_inside rules w.registry

theorem onlyFetches_preserves {P : World → Prop} (hP : World.Untouched P) (h : o.onlyFetches = true) (hw : P w) :
    P (o.apply w).2 := by
  cases o with
  | fetch cached low high seed => exact (fetch_parallel hP.parallel ⟨rfl, hw⟩ cached low high seed).2.2
  | run e t u => exact (run_parallel hP.parallel ⟨rfl, hw⟩ rfl rfl e t u).2.2
  | add | update | remove | reorder | pin | cache | reset => cases h

theorem onlyFetches_fetchedAt (h : o.onlyFetches = true) (w : World) (now : Number) :
    (o.apply w).2.registry.fetchedAt now = w.registry.fetchedAt now := by
  have hfetched : World.Untouched fun x => x.registry.fetchedAt now = w.registry.fetchedAt now :=
    .of_registry (P := fun r => r.fetchedAt now = w.registry.fetchedAt now) fun _ _ hr => hr
  exact onlyFetches_preserves hfetched h rfl

end Operation

/-- Both registries have the same name current, the same pinned, and the same version of a name. -/
structure Registry.Aligned (name : String) (r r' : Registry) : Prop where
  currentAs : r'.currentAs = r.currentAs
  pinned : r'.pinned = r.pinned
  find : r'.find name = r.find name

namespace Registry.Aligned

variable {name : String} {r r' : Registry}

theorem untouched (name : String) (r : Registry) : World.Untouched fun w => r.Aligned name w.registry :=
  .of_registry fun _ _ h => ⟨h.currentAs, h.pinned, h.find⟩

theorem rewritten (h : r.Aligned name r') (hother : name ≠ r.current) (rules : List Rule) :
    r.Aligned name (r'.rewritten rules) := by
  have hne : name ≠ r'.current := by
    rw [current, h.currentAs]
    exact hother
  constructor
  · exact h.currentAs
  · exact h.pinned
  · exact (find_rewritten_of_ne hne).trans h.find

theorem active (h : r.Aligned name r') (hpinned : r.pinned = some name) (hname : name ≠ "") :
    r'.active = r.active := by
  have hpinned' : r'.pinned = some name := h.pinned.trans hpinned
  simp [Registry.active, activeName, hpinned, hpinned', hname, h.find]

end Registry.Aligned

namespace World

/-- While another version than the current one is pinned, edits of rules and runs do not change what is in force. -/
theorem Course.active_of_pinned {v w : World} {name : String} (hpinned : v.registry.pinned = some name)
    (hname : name ≠ "") (hother : name ≠ v.registry.current)
    (h : Course (fun o _ => o.editsRules = true ∨ o.onlyFetches = true) v w) :
    w.registry.active = v.registry.active := by
  have hkept : v.registry.Aligned name w.registry := by
    refine h.preserves (Registry.Aligned.untouched name v.registry) ?_ ⟨rfl, rfl, rfl⟩
    rintro o x (hedits | hfetches) hx
    · rcases Operation.editsRules_cases (w := x) hedits with hsame | ⟨rules, hstored⟩
      · rw [hsame]
        exact hx
      · rw [hstored]
        exact hx.rewritten hother rules
    · exact Operation.onlyFetches_preserves (Registry.Aligned.untouched name v.registry) hfetches hx
  exact hkept.active hpinned hname

/-- An edit of rules leaves the pointers, the names and their order, and every version but the first of the current
name as they are, and in that one it changes the rules and the signature; a run or a fetch changes the time of the last
fetch. What is in force while another version is pinned therefore stays the same in every course of these. -/
theorem edits_stay_inside (w : World) :
    (∀ o : Operation, o.editsRules = true → w.registry.EditedInside (o.apply w).2.registry) ∧
      (∀ o : Operation, o.onlyFetches = true → ∀ now,
        (o.apply w).2.registry.fetchedAt now = w.registry.fetchedAt now) ∧
        ∀ name, w.registry.pinned = some name → name ≠ "" → name ≠ w.registry.current →
          ∀ x, w.Course (fun o _ => o.editsRules = true ∨ o.onlyFetches = true) x →
            x.registry.active = w.registry.active := by
  refine ⟨?_, ?_, ?_⟩
  · intro o hedits
    exact Operation.editsRules_inside hedits
  · intro o hfetches now
    exact Operation.onlyFetches_fetchedAt hfetches w now
  · intro name hpinned hname hother x hx
    exact hx.active_of_pinned hpinned hname hother

/-- A rule that two versions share goes from the current one only. -/
theorem edits_stay_inside_beside_pin :
    let w := Operation.applyAll [.pin (some "1.0.0")] Sample.baseline
    (Operation.applyAll [.remove "rule_high_apr", .reorder ["rule_gas_boost"]] w).registry.active = w.registry.active ∧
      (Operation.applyAll [.remove "rule_high_apr", .reorder ["rule_gas_boost"]] w).registry.versions.map
        (fun p => p.rules.length) = [5, 7, 9] := by
  intro w
  have hother : "1.0.0" ≠ w.registry.current := by decide
  have hcourse : w.Course (fun o _ => o.editsRules = true ∨ o.onlyFetches = true)
      (Operation.applyAll [.remove "rule_high_apr", .reorder ["rule_gas_boost"]] w) := by
    refine Course.applyAll _ ?_ .start
    simp [Operation.editsRules]
  constructor
  · exact (edits_stay_inside w).2.2 "1.0.0" rfl (by decide) hother _ hcourse
  · decide +kernel

end World

end WalletRouting
