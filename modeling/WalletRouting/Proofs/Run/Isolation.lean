import WalletRouting.Proofs.Run.Degradation
import WalletRouting.Proofs.Run.Operation

/-! # Runs and what happens during them

A run works on the policy that it finds when it begins; of all else that may change it reads the clock alone. Under a
clock that stands still it therefore answers the same whatever is done to the registry in the meantime, and what is
done comes out as if there were no run.
-/
namespace WalletRouting
set_option autoImplicit false

def Clock.Stands (time : Number) (c : Clock) : Prop := ∀ n, c.reading n = time

theorem Clock.steady_stands (time : Int) : (steady (.int time) (.int 0)).Stands (.int time) := by
  intro n
  simp [steady, Number.scale, Number.add]

/-- It is the same time in both worlds, and their registries differ at most in when they last fetched. -/
structure World.Agree (time : Number) (v w : World) : Prop where
  registry : v.registry.fetchedAt time = w.registry.fetchedAt time
  left : v.clock.Stands time
  right : w.clock.Stands time

namespace Registry

variable {time : Number}

theorem edit_fetchedAt (e : Edit) (r : Registry) (time : Number) :
    (r.fetchedAt time).edit e = (r.edit e).map (Prod.map id (fetchedAt time)) := by
  have hfind : (r.fetchedAt time).find (r.fetchedAt time).current = r.find r.current := rfl
  unfold edit
  rw [hfind]
  cases r.find r.current with
  | error error => rfl
  | ok p =>
    dsimp only [bind, Except.bind]
    cases e p <;> rfl

theorem addRule_fetchedAt (rule : Rule) (r : Registry) (time : Number) :
    (r.fetchedAt time).addRule rule = (r.addRule rule).map (Prod.map id (fetchedAt time)) := by
  unfold addRule
  rw [edit_fetchedAt]
  cases Edit.requireValid rule <;> rfl

theorem pin_fetchedAt (version : Option String) (r : Registry) (time : Number) :
    (r.fetchedAt time).pin version = (r.pin version).map (fetchedAt time) := by
  cases version with
  | none => rfl
  | some name =>
    have hversions : (r.fetchedAt time).versions = r.versions := rfl
    unfold pin
    dsimp only
    rw [hversions]
    split <;> rfl

theorem markCached_fetchedAt (version : String) (mark : Value) (r : Registry) (time : Number) :
    (r.fetchedAt time).markCached version mark = (r.markCached version mark).map (fetchedAt time) := by
  have hfind : (r.fetchedAt time).find version = r.find version := rfl
  unfold markCached
  rw [hfind]
  cases r.find version <;> rfl

theorem load_eq {c c' : Clock} (hc : c.Stands time) (hc' : c'.Stands time) (o : Origin) :
    (load o c).1 = (load o c').1 ∧ (load o c).2.Stands time := by
  have hnow : c.now = c'.now := (hc _).trans (hc' _).symm
  have hnext : c.tick.now = c'.tick.now := (hc _).trans (hc' _).symm
  unfold load
  cases o.versions with
  | some versions =>
    dsimp only
    rw [hnow]
    exact ⟨rfl, hc⟩
  | none =>
    dsimp only
    rw [hnow, hnext]
    exact ⟨rfl, hc⟩

end Registry

namespace World

variable {time : Number} {v w : World}

theorem parallel_stands (time : Number) : Parallel fun v w => v.clock.Stands time ∧ w.clock.Stands time where
  now v w h := (h.1 v.clock.taken).trans (h.2 w.clock.taken).symm
  ticked _ _ h := h
  napped _ _ _ h := h
  fetched _ _ _ h := h

theorem parallel_agree (time : Number) : Parallel fun v w => v.Agree time w where
  now v w h := (h.left v.clock.taken).trans (h.right w.clock.taken).symm
  ticked _ _ h := ⟨h.registry, h.left, h.right⟩
  napped _ _ _ h := ⟨h.registry, h.left, h.right⟩
  fetched _ _ _ h := ⟨h.registry, h.left, h.right⟩

theorem untouched_agree (time : Number) (w : World) : Untouched fun v => v.Agree time w where
  ticked _ h := ⟨h.registry, h.left, h.right⟩
  napped _ _ h := ⟨h.registry, h.left, h.right⟩
  fetched _ _ h := ⟨h.registry, h.left, h.right⟩

theorem Agree.refl (h : w.clock.Stands time) : w.Agree time w := ⟨rfl, h, h⟩

theorem Agree.active (h : v.Agree time w) : v.registry.active = w.registry.active := by
  have hactive (r : Registry) : (r.fetchedAt time).active = r.active := rfl
  rw [← hactive, h.registry, hactive]

theorem Agree.isPinned (h : v.Agree time w) : v.registry.isPinned = w.registry.isPinned := by
  have hpinned (r : Registry) : (r.fetchedAt time).isPinned = r.isPinned := rfl
  rw [← hpinned, h.registry, hpinned]

theorem Agree.origin (h : v.Agree time w) : v.registry.origin = w.registry.origin := by
  have horigin (r : Registry) : (r.fetchedAt time).origin = r.origin := rfl
  rw [← horigin, h.registry, horigin]

theorem edited_agree {done : Registry → Except RegistryError (PolicyVersion × Registry)}
    (hdone : ∀ r, done (r.fetchedAt time) = (done r).map (Prod.map id (Registry.fetchedAt time)))
    (h : v.Agree time w) :
    (v.edited (done v.registry)).1 = (w.edited (done w.registry)).1 ∧
      (v.edited (done v.registry)).2.Agree time (w.edited (done w.registry)).2 := by
  have hsame : (done v.registry).map (Prod.map id (Registry.fetchedAt time)) =
      (done w.registry).map (Prod.map id (Registry.fetchedAt time)) := by
    rw [← hdone, h.registry, hdone]
  rcases map_eq_map hsame with ⟨error, hv, hw⟩ | ⟨⟨p, r⟩, ⟨p', r'⟩, hv, hw, hmade⟩
  · rw [hv, hw]
    exact ⟨rfl, h⟩
  · obtain ⟨hp, hr⟩ := Prod.mk.inj hmade
    obtain rfl : p = p' := hp
    rw [hv, hw]
    unfold edited
    dsimp only
    cases p.writeError? with
    | some e => exact ⟨rfl, hr, h.left, h.right⟩
    | none => exact ⟨rfl, hr, h.left, h.right⟩

theorem changed_agree {done : Registry → Except RegistryError Registry}
    (hdone : ∀ r, done (r.fetchedAt time) = (done r).map (Registry.fetchedAt time)) (h : v.Agree time w) :
    (v.changed (done v.registry)).1 = (w.changed (done w.registry)).1 ∧
      (v.changed (done v.registry)).2.Agree time (w.changed (done w.registry)).2 := by
  have hsame : (done v.registry).map (Registry.fetchedAt time) = (done w.registry).map (Registry.fetchedAt time) := by
    rw [← hdone, h.registry, hdone]
  rcases map_eq_map hsame with ⟨error, hv, hw⟩ | ⟨r, r', hv, hw, hr⟩
  · rw [hv, hw]
    exact ⟨rfl, h⟩
  · rw [hv, hw]
    exact ⟨rfl, hr, h.left, h.right⟩

theorem tryReset_agree (h : v.Agree time w) :
    v.tryReset.1 = w.tryReset.1 ∧ v.tryReset.2.Agree time w.tryReset.2 := by
  have horigin := h.origin
  have hissues : Registry.issues v.registry.origin v.clock = Registry.issues w.registry.origin w.clock := by
    have hnow : v.clock.now = w.clock.now := (h.left _).trans (h.right _).symm
    rw [horigin]
    unfold Registry.issues
    rw [hnow]
  unfold tryReset
  rw [hissues]
  split
  · obtain ⟨hregistry, hv⟩ := Registry.load_eq h.left h.right v.registry.origin
    obtain ⟨-, hw⟩ := Registry.load_eq h.right h.left w.registry.origin
    rw [horigin] at hregistry hv
    unfold reset Registry.reset
    rw [horigin]
    exact ⟨rfl, congrArg (Registry.fetchedAt time) hregistry, hv, hw⟩
  · exact ⟨rfl, h.registry, h.left, h.right⟩

end World

/-- An observer that never ends a run and does not move the clock. -/
structure Observer.Calm {σ : Type} (time : Number) (o : Observer σ) : Prop where
  silent : ∀ e result kept w, (o.after e result kept w).1 = none
  stands : ∀ e result kept w, w.clock.Stands time → (o.after e result kept w).2.2.clock.Stands time

theorem Observer.silent_calm (time : Number) : Observer.silent.Calm time := ⟨fun _ _ _ _ => rfl, fun _ _ _ _ h => h⟩

theorem Observer.Calm.parallel {σ τ : Type} {time : Number} {o : Observer σ} {o' : Observer τ} (h : o.Calm time)
    (h' : o'.Calm time) :
    o.Parallel (fun v w => v.clock.Stands time ∧ w.clock.Stands time) (fun _ _ => True) o' := by
  rintro e result kept kept' v w - ⟨hv, hw⟩
  refine ⟨?_, trivial, h.stands e result kept v hv, h'.stands e result kept' w hw⟩
  rw [h.silent, h'.silent]

/-- What a run answers with hangs on the policy in force when it begins and on the time, and on nothing else that
there is in the world. -/
theorem Engine.run_eq {σ τ : Type} {time : Number} {v w : World} {o : Observer σ} {o' : Observer τ} (ho : o.Calm time)
    (ho' : o'.Calm time) (h : v.Agree time w) (e : Engine) (t : Transaction) (u : User) (kept : σ) (kept' : τ) :
    (e.run t u o kept v).1 = (e.run t u o' kept' w).1 :=
  (run_parallel (World.parallel_stands time) (ho.parallel ho') ⟨h.left, h.right⟩ h.active h.isPinned trivial e t u).1

namespace Operation

variable {time : Number} {v w : World}

theorem apply_agree (o : Operation) (h : v.Agree time w) :
    (o.apply v).1 = (o.apply w).1 ∧ (o.apply v).2.Agree time (o.apply w).2 := by
  cases o with
  | add rule => exact World.edited_agree (fun r => Registry.addRule_fetchedAt rule r time) h
  | update id updates => exact World.edited_agree (fun r => Registry.edit_fetchedAt (.update id updates) r time) h
  | remove id => exact World.edited_agree (fun r => Registry.edit_fetchedAt (.remove id) r time) h
  | reorder ids => exact World.edited_agree (fun r => Registry.edit_fetchedAt (.reorder ids) r time) h
  | pin version => exact World.changed_agree (fun r => Registry.pin_fetchedAt version r time) h
  | cache version mark => exact World.changed_agree (fun r => Registry.markCached_fetchedAt version mark r time) h
  | fetch cached low high seed => exact fetch_parallel (World.parallel_agree time) h cached low high seed
  | reset =>
    obtain ⟨hdone, hagree⟩ := World.tryReset_agree h
    simp only [apply]
    rw [hdone]
    exact ⟨rfl, hagree⟩
  | run e t u => exact run_parallel (World.parallel_agree time) h h.active h.isPinned e t u

theorem applyAll_agree (os : List Operation) (h : v.Agree time w) :
    answers os v = answers os w ∧ (applyAll os v).Agree time (applyAll os w) := by
  induction os generalizing v w with
  | nil => exact ⟨rfl, h⟩
  | cons o rest ih =>
    obtain ⟨hanswer, hagree⟩ := o.apply_agree h
    obtain ⟨hanswers, hagree⟩ := ih hagree
    rw [answers, answers, hanswer, hanswers]
    exact ⟨rfl, hagree⟩

theorem applyAll_append (os rest : List Operation) (w : World) :
    applyAll (os ++ rest) w = applyAll rest (applyAll os w) := List.foldl_append

theorem answers_append (os rest : List Operation) (w : World) :
    answers (os ++ rest) w = answers os w ++ answers rest (applyAll os w) := by
  induction os generalizing w with
  | nil => rfl
  | cons o os ih =>
    rw [List.cons_append, answers, answers, ih]
    rfl

end Operation

namespace Interruption

/-- What a script does after these stages, all of it in the order in which it is done. -/
def operationsOf (e : Engine) (script : Int → List Interruption) (stages : List Stage) : List Operation :=
  stages.flatMap fun s => (script s.index).map (operation e)

theorem restart_refused {e : Engine} (hbusy : e.busy = true) (t : Transaction) (u : User) (w : World) :
    ((restart t u).operation e).apply w = (.error (.run .busy), w) := by
  simp only [operation, Operation.apply, Engine.route, Engine.run, hbusy, if_true]

end Interruption

namespace Engine

variable {time : Number} {v w : World}

theorem acting_calm (time : Number) (script : Int → List Interruption) : (Observer.acting script).Calm time :=
  ⟨fun _ _ _ _ => rfl, fun _ _ _ _ h => (Operation.applyAll_agree _ (World.Agree.refl h)).2.left⟩

theorem runStages_acting (script : Int → List Interruption) (h : w.Agree time v) (e : Engine) (j : Job)
    (stages : List Stage) (r : Run) (kept : List (Except OperationError Answer)) :
    (e.runStages j (.acting script) stages r kept w).2.1 =
        kept ++ Operation.answers (Interruption.operationsOf e script stages) v ∧
      (e.runStages j (.acting script) stages r kept w).2.2.Agree time
        (Operation.applyAll (Interruption.operationsOf e script stages) v) := by
  induction stages generalizing r kept w v with
  | nil => exact ⟨(List.append_nil kept).symm, h⟩
  | cons s rest ih =>
    -- The world beside the run does only what the script does, so it has no stage to go through.
    have hindex : (e.runStage j s r w).1.index = s.index := by
      obtain ⟨span, hrecorded, -⟩ := runStage_recorded (e := e) (j := j) (s := s) (r := r) (w := w) rfl
      exact hrecorded.index
    have hstage := runStage_preserves (World.untouched_agree time v) h e j s r
    obtain ⟨hanswers, hagree⟩ := Operation.applyAll_agree ((script s.index).map (Interruption.operation e)) hstage
    simp only [runStages, Observer.acting, hindex]
    obtain ⟨hkept, hagree⟩ := ih hagree (e.runStage j s r w).2.1
      (kept ++ Operation.answers ((script s.index).map (Interruption.operation e)) (e.runStage j s r w).2.2)
    rw [Interruption.operationsOf, List.flatMap_cons, Operation.answers_append, Operation.applyAll_append,
      ← List.append_assoc, ← hanswers]
    exact ⟨hkept, hagree⟩

/-- Where a run begins at all, what is done during it is answered and comes out as it would without the run. -/
theorem run_acting (script : Int → List Interruption) {e : Engine} (hidle : e.busy = false) (h : w.Agree time v)
    {t : Transaction} {u : User} {j : Job} {r : Run} {w₁ : World}
    (hbegin : ({ e with busy := true } : Engine).begin t u w = (.ok (j, r), w₁)) :
    (e.run t u (.acting script) [] w).2.1 =
        Operation.answers (Interruption.operationsOf { e with busy := true } script Stage.all) v ∧
      (e.run t u (.acting script) [] w).2.2.Agree time
        (Operation.applyAll (Interruption.operationsOf { e with busy := true } script Stage.all) v) := by
  generalize hbusy : ({ e with busy := true } : Engine) = busy at hbegin ⊢
  have hagree := begin_preserves (World.untouched_agree time v) h busy t u
  rw [hbegin] at hagree
  have hagree : w₁.Agree time v := hagree
  obtain ⟨hkept, hagree⟩ := runStages_acting script hagree busy j Stage.all r []
  unfold run
  rw [hidle, if_neg Bool.false_ne_true, hbusy]
  dsimp only
  rw [hbegin]
  dsimp only
  rcases hran : busy.runStages j (.acting script) Stage.all r [] w₁ with ⟨_ | r', kept, w₂⟩
  · rw [hran] at hkept hagree
    exact ⟨hkept, hagree⟩
  · rw [hran] at hkept hagree
    exact ⟨hkept, conclude_preserves (World.untouched_agree time _) hagree busy j r'⟩

/-- Under a clock that stands still a run answers as it would if nothing were done while it goes on. What is done takes
effect as it would without the run, save for when the registry last fetched; to start the engine again is refused. -/
theorem run_isolated {e : Engine} {w : World} {time : Int} (hidle : e.busy = false)
    (hclock : w.clock.Stands (.int time)) (t : Transaction) (u : User) (script : Int → List Interruption) :
    (e.run t u (.acting script) [] w).1 = (e.route t u w).1 ∧
      (∀ p, w.registry.active = .ok p →
        let os := Interruption.operationsOf { e with busy := true } script Stage.all
        (e.run t u (.acting script) [] w).2.1 = Operation.answers os w ∧
          ∀ fetched, (e.run t u (.acting script) [] w).2.2.registry.fetchedAt fetched =
            (Operation.applyAll os w).registry.fetchedAt fetched) ∧
        ∀ t' u' v, ((Interruption.restart t' u').operation { e with busy := true }).apply v =
          (.error (.run .busy), v) := by
  have hagree := World.Agree.refl hclock
  refine ⟨?_, ?_, ?_⟩
  · exact run_eq (acting_calm _ script) (Observer.silent_calm _) hagree e t u [] ()
  · intro p hactive
    have hwhole : w.clock.Whole := fun n => ⟨time, hclock n⟩
    obtain ⟨j, r, w₁, hbegin, -⟩ := begin_returns (e := { e with busy := true }) hwhole hactive t u
    obtain ⟨hkept, hagree⟩ := run_acting script hidle hagree hbegin
    refine ⟨hkept, ?_⟩
    intro fetched
    exact congrArg (fun r => r.fetchedAt fetched) hagree.registry
  · exact Interruption.restart_refused rfl

end Engine

namespace Sample

def still (rules : List Rule) : World :=
  World.opened ⟨some [policy rules], .null, .null⟩ (Clock.steady (.int 0) (.int 0))

/-- Just before rules are evaluated `a` is excluded, the engine is started again, and a version is to be pinned that
there is not. -/
def meddling (index : Int) : List Interruption :=
  if index = 4 then
    [.operate (.add (exclusion "a")), .restart purchase user, .operate (.pin (some "9.9.9"))]
  else []

end Sample

/-- The rule that is added while the run goes on does not bear on it, and is there in the end. -/
theorem Engine.run_isolated_from_meddling :
    (Sample.engine.run Sample.purchase Sample.user (.acting Sample.meddling) [] (Sample.still [])).1 =
        (Sample.engine.route Sample.purchase Sample.user (Sample.still [])).1 ∧
      (Sample.engine.run Sample.purchase Sample.user (.acting Sample.meddling) []
        (Sample.still [])).2.2.registry.versions.map (fun p => p.rules.map Rule.id) = [["exclusion"]] := by
  have hstands : (Sample.still []).clock.Stands (.int 0) := Clock.steady_stands 0
  obtain ⟨hsame, hdone, -⟩ :=
    run_isolated (e := Sample.engine) rfl hstands Sample.purchase Sample.user Sample.meddling
  obtain ⟨-, hregistry⟩ := hdone (Sample.policy []) rfl
  have hversions (r : Registry) : (r.fetchedAt (.int 0)).versions = r.versions := rfl
  refine ⟨hsame, ?_⟩
  rw [← hversions, hregistry, hversions]
  decide +kernel

end WalletRouting
