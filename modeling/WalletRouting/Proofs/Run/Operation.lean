import WalletRouting.Proofs.Run.World
import WalletRouting.Run.Operation

/-! # Sequences of operations

Fetching, resetting and running answer with no policy. Fetching and running answer the same in parallel worlds and keep
these parallel. `World.Reaches` is every way to go on from a world.
-/
namespace WalletRouting
set_option autoImplicit false

namespace Operation

variable (w : World)

theorem applyAll_singleton (o : Operation) : applyAll [o] w = (o.apply w).2 := rfl

theorem fetch_ne_policy (cached : Bool) (low high : Number) (seed : Int) (p : PolicyVersion) :
    ((fetch cached low high seed).apply w).1 ≠ .ok (.policy p) := by
  simp only [apply]
  split <;> rintro ⟨⟩

theorem reset_ne_policy (p : PolicyVersion) : (reset.apply w).1 ≠ .ok (.policy p) := by
  simp only [apply]
  cases w.tryReset.1 <;> rintro ⟨⟩

theorem run_ne_policy (e : Engine) (t : Transaction) (u : User) (p : PolicyVersion) :
    ((run e t u).apply w).1 ≠ .ok (.policy p) := by
  simp only [apply]
  split <;> rintro ⟨⟩

section Parallel

variable {R : World → World → Prop} (hR : World.Parallel R) {v w : World}

include hR

theorem fetch_parallel (h : R v w) (cached : Bool) (low high : Number) (seed : Int) :
    ((fetch cached low high seed).apply v).1 = ((fetch cached low high seed).apply w).1 ∧
      R ((fetch cached low high seed).apply v).2 ((fetch cached low high seed).apply w).2 := by
  obtain ⟨hlatency, -, hworld⟩ := World.fetch_parallel hR h cached low high (Generator.ofSeed seed)
  simp only [apply]
  generalize v.fetch cached low high (Generator.ofSeed seed) = done at hlatency hworld ⊢
  generalize w.fetch cached low high (Generator.ofSeed seed) = done' at hlatency hworld ⊢
  obtain ⟨latency, g, v⟩ := done
  obtain ⟨latency', g', w⟩ := done'
  obtain rfl : latency = latency' := hlatency
  cases latency <;> exact ⟨rfl, hworld⟩

/-- A run on its own has no observer, so it need only find the same policy. -/
theorem run_parallel (h : R v w) (hactive : v.registry.active = w.registry.active)
    (hpinned : v.registry.isPinned = w.registry.isPinned) (e : Engine) (t : Transaction) (u : User) :
    ((run e t u).apply v).1 = ((run e t u).apply w).1 ∧ R ((run e t u).apply v).2 ((run e t u).apply w).2 := by
  have hsilent : Observer.silent.Parallel R Eq Observer.silent := fun _ _ _ _ _ _ hkept hworld => ⟨rfl, hkept, hworld⟩
  obtain ⟨hresult, -, hworld⟩ := Engine.run_parallel hR hsilent h hactive hpinned rfl e t u
  simp only [apply, Engine.route]
  generalize e.run t u Observer.silent () v = done at hresult hworld ⊢
  generalize e.run t u Observer.silent () w = done' at hresult hworld ⊢
  obtain ⟨result, _, v⟩ := done
  obtain ⟨result', _, w⟩ := done'
  obtain rfl : result = result' := hresult
  cases result <;> exact ⟨rfl, hworld⟩

end Parallel

end Operation

namespace World

/-- The worlds that operations lead to, those included that an observer carries out in the middle of a run. -/
inductive Reaches : World → World → Prop where
  | refl (w : World) : Reaches w w
  | apply {v w : World} (o : Operation) (h : Reaches v w) : Reaches v (o.apply w).2
  | observed {v w : World} {σ : Type} (observer : Observer σ)
      (hobserver : ∀ e result kept x, Reaches x (observer.after e result kept x).2.2) (e : Engine) (t : Transaction)
      (u : User) (kept : σ) (h : Reaches v w) : Reaches v (e.run t u observer kept w).2.2

theorem reaches_applyAll (os : List Operation) {v w : World} (h : v.Reaches w) :
    v.Reaches (Operation.applyAll os w) := by
  induction os generalizing w with
  | nil => exact h
  | cons o rest ih => exact ih (h.apply o)

end World

end WalletRouting
