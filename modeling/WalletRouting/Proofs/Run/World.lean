import WalletRouting.Run.Engine

/-! # What a run does to the world

A run itself only reads the clock, naps, and notes the time of a fetch. Two runs beside each other therefore do the same
in worlds in which it is the same time, and their worlds stay as alike as what happens in the meantime leaves them. All
that happens in the meantime is the observer's doing, so what both keep, a run keeps.
-/
namespace WalletRouting
set_option autoImplicit false

/-- It is the same time in related worlds, and they stay related under what runs do to them by themselves. -/
structure World.Parallel (R : World → World → Prop) : Prop where
  now : ∀ v w, R v w → v.clock.now = w.clock.now
  ticked : ∀ v w, R v w → R { v with clock := v.clock.tick } { w with clock := w.clock.tick }
  napped : ∀ v w naps, R v w → R { v with naps := v.naps ++ naps } { w with naps := w.naps ++ naps }
  fetched : ∀ v w now, R v w →
    R { v with registry := v.registry.fetchedAt now } { w with registry := w.registry.fetchedAt now }

/-- The observers end runs alike and keep related what was related. -/
def Observer.Parallel {σ τ : Type} (R : World → World → Prop) (K : σ → τ → Prop) (o : Observer σ) (o' : Observer τ) :
    Prop :=
  ∀ e result kept kept' v w, K kept kept' → R v w →
    (o.after e result kept v).1 = (o'.after e result kept' w).1 ∧
      K (o.after e result kept v).2.1 (o'.after e result kept' w).2.1 ∧
        R (o.after e result kept v).2.2 (o'.after e result kept' w).2.2

theorem Engine.registry_now (e : Engine) (w : World) : (e.now w).2.registry = w.registry := by
  unfold now
  cases e.fixedTime <;> rfl

/-! ## Runs beside each other -/

section Parallel

variable {R : World → World → Prop} (hR : World.Parallel R) {v w : World}

include hR

theorem World.fetch_parallel (h : R v w) (cached : Bool) (low high : Number) (g : Generator) :
    (v.fetch cached low high g).1 = (w.fetch cached low high g).1 ∧
      (v.fetch cached low high g).2.1 = (w.fetch cached low high g).2.1 ∧
        R (v.fetch cached low high g).2.2 (w.fetch cached low high g).2.2 := by
  have hfetched := hR.fetched _ _ w.clock.now (hR.ticked v w h)
  unfold fetch tick
  rw [hR.now v w h]
  rcases Registry.fetchLatency cached low high g with ⟨_ | latency, g'⟩
  · exact ⟨rfl, rfl, h⟩
  · exact ⟨rfl, rfl, hfetched⟩

namespace Engine

theorem now_parallel (h : R v w) (e : Engine) : (e.now v).1 = (e.now w).1 ∧ R (e.now v).2 (e.now w).2 := by
  unfold now
  cases e.fixedTime with
  | some t => exact ⟨rfl, h⟩
  | none => exact ⟨hR.now v w h, hR.ticked v w h⟩

theorem duration_parallel {j j' : Job} (hcached : j.policy.cached = j'.policy.cached) (h : R v w) (s : Stage)
    (g : Generator) :
    (duration j s g v).1 = (duration j' s g w).1 ∧ (duration j s g v).2.1 = (duration j' s g w).2.1 ∧
      R (duration j s g v).2.2 (duration j' s g w).2.2 := by
  unfold duration
  rw [hcached]
  split
  · obtain ⟨hlatency, hgenerator, hworld⟩ := World.fetch_parallel hR h j'.policy.cached
      (.int s.latencyRange.1) (.int s.latencyRange.2) g
    exact ⟨congrArg (fun latency => latency.toOption.getD s.latencyRange.1) hlatency, hgenerator, hworld⟩
  · exact ⟨rfl, rfl, h⟩

theorem pace_parallel (h : R v w) (e : Engine) (duration : Int) : R (e.pace duration v) (e.pace duration w) := by
  unfold pace
  split
  · exact hR.napped v w _ h
  · exact h

theorem stamp_parallel {s : Stage} {r r' : Run} (hstamps : s.stamps r = s.stamps r') (h : R v w) (e : Engine) :
    (e.stamp s r v).1 = (e.stamp s r' w).1 ∧ R (e.stamp s r v).2 (e.stamp s r' w).2 := by
  unfold stamp
  rw [hstamps]
  split
  · exact now_parallel hR h e
  · exact ⟨rfl, h⟩

theorem runStage_parallel (h : R v w) (e : Engine) (j : Job) (s : Stage) (r : Run) :
    (e.runStage j s r v).1 = (e.runStage j s r w).1 ∧ (e.runStage j s r v).2.1 = (e.runStage j s r w).2.1 ∧
      R (e.runStage j s r v).2.2 (e.runStage j s r w).2.2 := by
  obtain ⟨hduration, hgenerator, hworld⟩ := duration_parallel hR (rfl : j.policy.cached = _) h s r.generator
  have hpaced := pace_parallel hR hworld e (duration j s r.generator w).1
  obtain ⟨hnow, hstamped⟩ := stamp_parallel hR (rfl : s.stamps r = _) hpaced e
  unfold runStage
  dsimp only
  rw [hduration, hgenerator, hnow]
  exact ⟨rfl, rfl, hstamped⟩

variable {σ τ : Type} {K : σ → τ → Prop} {o : Observer σ} {o' : Observer τ} (ho : o.Parallel R K o') {kept : σ}
  {kept' : τ}

include ho

theorem runStages_parallel (h : R v w) (hkept : K kept kept') (e : Engine) (j : Job) (stages : List Stage) (r : Run) :
    (e.runStages j o stages r kept v).1 = (e.runStages j o' stages r kept' w).1 ∧
      K (e.runStages j o stages r kept v).2.1 (e.runStages j o' stages r kept' w).2.1 ∧
        R (e.runStages j o stages r kept v).2.2 (e.runStages j o' stages r kept' w).2.2 := by
  induction stages generalizing r kept kept' v w with
  | nil => exact ⟨rfl, hkept, h⟩
  | cons s rest ih =>
    obtain ⟨hresult, hrun, hworld⟩ := runStage_parallel hR h e j s r
    obtain ⟨herror, hafter, hleft⟩ := ho e (e.runStage j s r w).1 kept kept' _ _ hkept hworld
    unfold runStages
    dsimp only
    rw [hresult, hrun]
    generalize o.after e (e.runStage j s r w).1 kept (e.runStage j s r v).2.2 = done at herror hafter hleft ⊢
    generalize o'.after e (e.runStage j s r w).1 kept' (e.runStage j s r w).2.2 = done' at herror hafter hleft ⊢
    obtain ⟨error, kept, v⟩ := done
    obtain ⟨error', kept', w⟩ := done'
    obtain rfl : error = error' := herror
    cases error with
    | none => exact ih hleft hafter _
    | some error => exact ⟨rfl, hafter, hleft⟩

omit ho in
/-- Of the registry, the beginning of a run reads what is active and whether that is pinned. -/
theorem begin_parallel (h : R v w) (hactive : v.registry.active = w.registry.active)
    (hpinned : v.registry.isPinned = w.registry.isPinned) (e : Engine) (t : Transaction) (u : User) :
    (e.begin t u v).1 = (e.begin t u w).1 ∧ R (e.begin t u v).2 (e.begin t u w).2 := by
  obtain ⟨hnow, hworld⟩ := now_parallel hR h e
  unfold begin
  dsimp only
  rw [registry_now, registry_now, hnow, hactive, hpinned]
  cases w.registry.active <;> exact ⟨rfl, hworld⟩

omit ho in
theorem conclude_parallel (h : R v w) (e : Engine) (j : Job) (r : Run) :
    (e.conclude j r v).1 = (e.conclude j r w).1 ∧ R (e.conclude j r v).2 (e.conclude j r w).2 := by
  obtain ⟨haudited, hread⟩ := now_parallel hR h e
  obtain ⟨hended, hworld⟩ := now_parallel hR hread e
  unfold conclude
  cases weightsUsed j r with
  | bad issues => exact ⟨rfl, h⟩
  | ok weights =>
    dsimp only
    rw [haudited]
    split
    · exact ⟨rfl, hread⟩
    · rw [hended]
      exact ⟨rfl, hworld⟩

/-- Runs that find the same policy at the same time answer the same, whatever else there is in their worlds, and leave
these related. -/
theorem run_parallel (h : R v w) (hactive : v.registry.active = w.registry.active)
    (hpinned : v.registry.isPinned = w.registry.isPinned) (hkept : K kept kept') (e : Engine) (t : Transaction)
    (u : User) :
    (e.run t u o kept v).1 = (e.run t u o' kept' w).1 ∧ K (e.run t u o kept v).2.1 (e.run t u o' kept' w).2.1 ∧
      R (e.run t u o kept v).2.2 (e.run t u o' kept' w).2.2 := by
  unfold run
  split
  · exact ⟨rfl, hkept, h⟩
  · dsimp only
    generalize ({ e with busy := true } : Engine) = e
    obtain ⟨hbegun, hworld⟩ := begin_parallel hR h hactive hpinned e t u
    generalize e.begin t u v = start at hbegun hworld ⊢
    generalize e.begin t u w = start' at hbegun hworld ⊢
    obtain ⟨begun, v⟩ := start
    obtain ⟨begun', w⟩ := start'
    obtain rfl : begun = begun' := hbegun
    obtain error | ⟨j, r⟩ := begun
    · exact ⟨rfl, hkept, hworld⟩
    · obtain ⟨hran, hkept, hworld⟩ := runStages_parallel hR ho hworld hkept e j Stage.all r
      dsimp only
      generalize e.runStages j o Stage.all r kept v = stages at hran hkept hworld ⊢
      generalize e.runStages j o' Stage.all r kept' w = stages' at hran hkept hworld ⊢
      obtain ⟨ran, kept, v⟩ := stages
      obtain ⟨ran', kept', w⟩ := stages'
      obtain rfl : ran = ran' := hran
      cases ran with
      | error error => exact ⟨rfl, hkept, hworld⟩
      | ok r' =>
        obtain ⟨hconcluded, hworld⟩ := conclude_parallel hR hworld e j r'
        exact ⟨hconcluded, hkept, hworld⟩

end Engine

end Parallel

/-! ## What a run keeps -/

/-- A property of worlds that does not hang on what a run does to them by itself. -/
structure World.Untouched (P : World → Prop) : Prop where
  ticked : ∀ w, P w → P { w with clock := w.clock.tick }
  napped : ∀ w naps, P w → P { w with naps := naps }
  fetched : ∀ w now, P w → P { w with registry := w.registry.fetchedAt now }

theorem World.Untouched.of_registry {P : Registry → Prop} (hfetch : ∀ r now, P r → P (r.fetchedAt now)) :
    Untouched fun w => P w.registry :=
  ⟨fun _ h => h, fun _ _ h => h, fun w now => hfetch w.registry now⟩

/-- A world that has the property is beside itself. -/
theorem World.Untouched.parallel {P : World → Prop} (hP : Untouched P) : Parallel fun v w => v = w ∧ P w where
  now := by
    rintro v w ⟨rfl, -⟩
    rfl
  ticked := by
    rintro v w ⟨rfl, h⟩
    exact ⟨rfl, hP.ticked v h⟩
  napped := by
    rintro v w naps ⟨rfl, h⟩
    exact ⟨rfl, hP.napped v _ h⟩
  fetched := by
    rintro v w now ⟨rfl, h⟩
    exact ⟨rfl, hP.fetched v now h⟩

section Preserved

variable {P : World → Prop} (hP : World.Untouched P) {w : World}

include hP

namespace Engine

theorem now_preserves (h : P w) (e : Engine) : P (e.now w).2 := (now_parallel hP.parallel ⟨rfl, h⟩ e).2.2

theorem duration_preserves (h : P w) (j : Job) (s : Stage) (g : Generator) : P (duration j s g w).2.2 :=
  (duration_parallel hP.parallel (rfl : j.policy.cached = _) ⟨rfl, h⟩ s g).2.2.2

theorem pace_preserves (h : P w) (e : Engine) (duration : Int) : P (e.pace duration w) :=
  (pace_parallel hP.parallel ⟨rfl, h⟩ e duration).2

theorem runStage_preserves (h : P w) (e : Engine) (j : Job) (s : Stage) (r : Run) : P (e.runStage j s r w).2.2 :=
  (runStage_parallel hP.parallel ⟨rfl, h⟩ e j s r).2.2.2

theorem begin_preserves (h : P w) (e : Engine) (t : Transaction) (u : User) : P (e.begin t u w).2 :=
  (begin_parallel hP.parallel ⟨rfl, h⟩ rfl rfl e t u).2.2

theorem conclude_preserves (h : P w) (e : Engine) (j : Job) (r : Run) : P (e.conclude j r w).2 :=
  (conclude_parallel hP.parallel ⟨rfl, h⟩ e j r).2.2

variable {σ : Type} {observer : Observer σ}
  (hafter : ∀ e result kept w, P w → P (observer.after e result kept w).2.2)

include hafter

omit hP in
theorem parallel_of_preserves : observer.Parallel (fun v w => v = w ∧ P w) Eq observer := by
  rintro e result kept _ v _ rfl ⟨rfl, h⟩
  exact ⟨rfl, rfl, rfl, hafter e result kept v h⟩

/-- What every stage carries one further, in worlds of a kind that the observer keeps, holds when stages that follow on
one another are behind the run. -/
theorem runStages_induction_within {Q : Nat → Run → Prop} {e : Engine} {j : Job}
    (hstage : ∀ {s : Stage} {r : Run} {w : World}, Q s.index r → P w → Q (s.index + 1) (e.runStage j s r w).2.1)
    (stages : List Stage) {n : Nat} (hstages : stages.map Stage.index = List.range' n stages.length) {r r' : Run}
    {kept kept' : σ} {w' : World} (hr : Q n r) (hw : P w)
    (hrun : e.runStages j observer stages r kept w = (.ok r', kept', w')) : Q (n + stages.length) r' := by
  induction stages generalizing n r kept w with
  | nil =>
    cases hrun
    exact hr
  | cons s rest ih =>
    -- The first stage stands where the run stands, so that it carries `Q` to where the others begin.
    simp only [List.map_cons, List.length_cons, List.range'_succ, List.cons.injEq] at hstages
    obtain ⟨rfl, hrest⟩ := hstages
    have hworld := hafter e (e.runStage j s r w).1 kept _ (runStage_preserves hP hw e j s r)
    unfold runStages at hrun
    dsimp only at hrun
    rcases hobserved : observer.after e (e.runStage j s r w).1 kept (e.runStage j s r w).2.2 with
      ⟨_ | error, kept₁, w₁⟩
    · rw [hobserved] at hrun hworld
      have hall := ih hrest (hstage hr hw) hworld hrun
      rwa [List.length_cons, Nat.add_comm rest.length, ← Nat.add_assoc]
    · rw [hobserved] at hrun
      cases hrun

/-- A run keeps what its observer keeps, if it does not hang on what a run does by itself. -/
theorem run_preserves (h : P w) (e : Engine) (t : Transaction) (u : User) (kept : σ) :
    P (e.run t u observer kept w).2.2 :=
  (run_parallel hP.parallel (parallel_of_preserves hafter) ⟨rfl, h⟩ rfl rfl rfl e t u).2.2.2

end Engine

end Preserved

end WalletRouting
