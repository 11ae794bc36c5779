import WalletRouting.Proofs.Run.Signing

/-! # Restarts

A registry that is reset is as it would be if it were opened at that time. The two worlds differ only in the naps that
runs took before, and nothing is ever answered that hangs on these.
-/
namespace WalletRouting
set_option autoImplicit false

namespace World

/-- The world with other naps before its own. -/
def rested (naps : List Double) (w : World) : World := { w with naps := naps ++ w.naps }

@[simp] theorem registry_rested (naps : List Double) (w : World) : (w.rested naps).registry = w.registry := rfl

@[simp] theorem clock_rested (naps : List Double) (w : World) : (w.rested naps).clock = w.clock := rfl

theorem parallel_rested (naps : List Double) : Parallel fun v w => v = w.rested naps where
  now := by
    rintro _ w rfl
    rfl
  ticked := by
    rintro _ w rfl
    rfl
  napped := by
    rintro _ w more rfl
    simp only [rested, List.append_assoc]
  fetched := by
    rintro _ w now rfl
    rfl

variable (naps : List Double) (w : World)

theorem tryReset_rested : (w.rested naps).tryReset = (w.tryReset.1, w.tryReset.2.rested naps) := by
  simp only [tryReset, registry_rested, clock_rested]
  split <;> rfl

theorem edited_rested (done : Except RegistryError (PolicyVersion × Registry)) :
    (w.rested naps).edited done = ((w.edited done).1, (w.edited done).2.rested naps) := by
  cases done with
  | error e => rfl
  | ok made =>
    simp only [edited]
    split <;> rfl

theorem changed_rested (done : Except RegistryError Registry) :
    (w.rested naps).changed done = ((w.changed done).1, (w.changed done).2.rested naps) := by
  cases done <;> rfl

end World

/-- An observer for which earlier naps make no difference. -/
def Observer.Unconcerned {σ : Type} (o : Observer σ) : Prop :=
  ∀ naps e result kept w, o.after e result kept (w.rested naps) =
    ((o.after e result kept w).1, (o.after e result kept w).2.1, (o.after e result kept w).2.2.rested naps)

theorem Observer.Unconcerned.parallel {σ : Type} {o : Observer σ} (h : o.Unconcerned) (naps : List Double) :
    o.Parallel (fun v w => v = w.rested naps) Eq o := by
  rintro e result kept _ _ w rfl rfl
  rw [h]
  exact ⟨rfl, rfl, rfl⟩

theorem Engine.run_rested {σ : Type} {observer : Observer σ} (hobserver : observer.Unconcerned) (naps : List Double)
    (e : Engine) (t : Transaction) (u : User) (kept : σ) (w : World) :
    e.run t u observer kept (w.rested naps) =
      ((e.run t u observer kept w).1, (e.run t u observer kept w).2.1,
        (e.run t u observer kept w).2.2.rested naps) := by
  obtain ⟨hresult, hkept, hworld⟩ :=
    run_parallel (World.parallel_rested naps) (hobserver.parallel naps) rfl rfl rfl rfl e t u
  exact Prod.ext hresult (Prod.ext hkept hworld)

namespace Operation

variable (naps : List Double) (w : World)

theorem apply_rested (o : Operation) :
    o.apply (w.rested naps) = ((o.apply w).1, (o.apply w).2.rested naps) := by
  cases o with
  | add rule => exact World.edited_rested naps w _
  | update id updates => exact World.edited_rested naps w _
  | remove id => exact World.edited_rested naps w _
  | reorder ids => exact World.edited_rested naps w _
  | pin version => exact World.changed_rested naps w _
  | cache version mark => exact World.changed_rested naps w _
  | fetch cached low high seed =>
    obtain ⟨hanswer, hworld⟩ := fetch_parallel (World.parallel_rested naps) rfl cached low high seed
    exact Prod.ext hanswer hworld
  | reset => simp only [apply, World.tryReset_rested]
  | run e t u =>
    obtain ⟨hanswer, hworld⟩ := run_parallel (World.parallel_rested naps) rfl rfl rfl e t u
    exact Prod.ext hanswer hworld

theorem answers_rested (os : List Operation) : answers os (w.rested naps) = answers os w := by
  induction os generalizing w with
  | nil => rfl
  | cons o rest ih => rw [answers, answers, apply_rested, ih]

theorem applyAll_rested (os : List Operation) : applyAll os (w.rested naps) = (applyAll os w).rested naps := by
  induction os generalizing w with
  | nil => rfl
  | cons o rest ih =>
    have hstep : applyAll (o :: rest) (w.rested naps) = applyAll rest ((o.apply w).2.rested naps) := by
      rw [applyAll, List.foldl_cons, apply_rested]
      rfl
    rw [hstep, ih]
    rfl

end Operation

theorem Observer.acting_unconcerned (script : Int → List Interruption) : (acting script).Unconcerned := by
  intro naps e result kept w
  simp only [acting, Operation.answers_rested, Operation.applyAll_rested]

namespace World

theorem Reaches.origin {v w : World} (h : v.Reaches w) : w.registry.origin = v.registry.origin := by
  induction h with
  | refl => rfl
  | apply o _ ih => exact (o.apply_follows _).2.trans ih
  | @observed u w σ observer _ e t user kept _ hafter ih =>
    have huntouched : Untouched fun x => x.registry.origin = u.registry.origin :=
      .of_registry (P := fun r => r.origin = u.registry.origin) fun _ _ hr => hr
    exact Engine.run_preserves huntouched (fun e result kept x hx => (hafter e result kept x).trans hx) ih e t user kept

theorem load_pinned (o : Origin) (c : Clock) : (Registry.load o c).1.pinned = none := by
  cases hgiven : o.versions <;> simp [Registry.load, hgiven]

theorem apply_reset_eq (w : World) :
    Operation.reset.apply w =
      match Registry.issues w.registry.origin w.clock with
      | [] => (.ok .nothing, (World.opened w.registry.origin w.clock).rested w.naps)
      | issues => (.error (.undated issues), { w with clock := w.clock.tick }) := by
  have hopened : w.reset = (World.opened w.registry.origin w.clock).rested w.naps := by
    simp [reset, Registry.reset, opened, rested]
  simp only [Operation.apply, tryReset]
  cases Registry.issues w.registry.origin w.clock with
  | nil => exact congrArg (Prod.mk _) hopened
  | cons issue rest => rfl

/-- Whatever was done to a registry since it was opened, it is after a reset as if it were opened at that time: it holds
the same and is not pinned, and all that is done to it from then on is answered in the same way and comes out the same,
operations in the middle of a run included. A reset fails only where the registry could not be opened either. -/
theorem reset_restarts {o : Origin} {c : Clock} {w : World} (h : (World.opened o c).Reaches w) :
    ((Operation.reset.apply w).1 = .ok .nothing ↔ Registry.issues o w.clock = []) ∧
      ∀ again, Operation.reset.apply w = (.ok .nothing, again) →
        again.registry = (World.opened o w.clock).registry ∧ again.clock = (World.opened o w.clock).clock ∧
          again.registry.pinned = none ∧
            ∀ os, Operation.answers os again = Operation.answers os (World.opened o w.clock) ∧
              (Operation.applyAll os again).registry = (Operation.applyAll os (World.opened o w.clock)).registry ∧
                ∀ (e : Engine) (t : Transaction) (u : User) (script : Int → List Interruption),
                  let run := e.run t u (.acting script) [] (Operation.applyAll os again)
                  let fresh := e.run t u (.acting script) [] (Operation.applyAll os (World.opened o w.clock))
                  run.1 = fresh.1 ∧ run.2.1 = fresh.2.1 ∧ run.2.2.registry = fresh.2.2.registry := by
  have horigin : w.registry.origin = o := h.origin.trans (Registry.load_origin o c)
  rw [apply_reset_eq, horigin]
  cases Registry.issues o w.clock with
  | cons issue rest =>
    constructor
    · simp
    · rintro again ⟨⟩
  | nil =>
    refine ⟨by simp, ?_⟩
    rintro again ⟨⟩
    refine ⟨rfl, rfl, load_pinned o w.clock, ?_⟩
    intro os
    refine ⟨Operation.answers_rested _ _ os, ?_, ?_⟩
    · rw [Operation.applyAll_rested, registry_rested]
    · intro e t u script
      rw [Operation.applyAll_rested]
      simp only [Engine.run_rested (Observer.acting_unconcerned script), registry_rested, and_self]

/-- The rule that was removed is there again, and the pin is gone. -/
theorem reset_restarts_after_edits :
    let w := Operation.applyAll
      [.pin (some "1.0.0"), .remove "rule_high_apr", .cache "2.0.0" (.bool false)] Sample.baseline
    (Operation.reset.apply w).2.registry.pinned = none ∧
      Operation.answers [.remove "rule_high_apr"] (Operation.reset.apply w).2 =
        Operation.answers [.remove "rule_high_apr"] (World.opened ⟨none, .null, .null⟩ w.clock) := by
  intro w
  obtain ⟨hdone, hagain⟩ := reset_restarts
    (reaches_applyAll [.pin (some "1.0.0"), .remove "rule_high_apr", .cache "2.0.0" (.bool false)]
      (Reaches.refl Sample.baseline))
  have hreset : Operation.reset.apply w = (.ok .nothing, (Operation.reset.apply w).2) :=
    Prod.ext (hdone.mpr rfl) rfl
  obtain ⟨-, -, hpinned, hanswers⟩ := hagain _ hreset
  exact ⟨hpinned, (hanswers [.remove "rule_high_apr"]).1⟩

end World

end WalletRouting
