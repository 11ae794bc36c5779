import WalletRouting.Proofs.Run.Findings
import WalletRouting.Proofs.Run.Scope

/-! # Pins

A pin stays until another is set, it is lifted, or the registry is reset: nothing else touches the pointers or the names
that they point at. The version of the pinned name is in force all the while, unless that name is empty.
-/
namespace WalletRouting
set_option autoImplicit false

namespace Registry

/-- Both registries hold versions of the same names in the same order, and have the same current and the same pinned. -/
structure SameNames (r r' : Registry) : Prop where
  currentAs : r'.currentAs = r.currentAs
  pinned : r'.pinned = r.pinned
  names : r'.versions.map PolicyVersion.version = r.versions.map PolicyVersion.version

variable {r r' : Registry} {name : String}

theorem SameNames.untouched (r : Registry) : World.Untouched fun w => r.SameNames w.registry :=
  .of_registry fun _ _ h => ⟨h.currentAs, h.pinned, h.names⟩

theorem SameNames.trans {r'' : Registry} (h : r.SameNames r') (h' : r'.SameNames r'') : r.SameNames r'' where
  currentAs := h'.currentAs.trans h.currentAs
  pinned := h'.pinned.trans h.pinned
  names := h'.names.trans h.names

theorem markCached_sameNames {mark : Value} (h : r.markCached name mark = .ok r') : r.SameNames r' := by
  obtain ⟨p, -, h⟩ := bind_eq_ok h
  cases h
  have hversion : ∀ p : PolicyVersion, (p.markCached mark).version = p.version := by
    intro p
    unfold PolicyVersion.markCached
    split <;> rfl
  exact ⟨rfl, rfl, map_version_replaceFirst hversion⟩

theorem pin_ok (h : r.pin (some name) = .ok r') :
    name ∈ r.versions.map PolicyVersion.version ∧ r' = { r with pinned := some name } := by
  simp only [pin] at h
  split at h
  · next hany =>
    cases h
    simp only [List.any_eq_true, decide_eq_true_eq] at hany
    exact ⟨List.mem_map.mpr hany, rfl⟩
  · cases h

theorem find_version {p : PolicyVersion} (h : r.find name = .ok p) : p.version = name := by
  simpa using List.find?_some (find_eq_ok h)

theorem find_of_mem (h : name ∈ r.versions.map PolicyVersion.version) : ∃ p, r.find name = .ok p := by
  obtain ⟨q, hq, hname⟩ := List.mem_map.mp h
  unfold find
  cases hfind : r.versions.find? fun p => p.version = name with
  | some p => exact ⟨p, rfl⟩
  | none =>
    have hnone := List.find?_eq_none.mp hfind q hq
    simp [hname] at hnone

/-- A pinned version is in force, except that an empty name counts for nothing beside the current one. -/
theorem active_of_pinned_iff (hpinned : r.pinned = some name) (hheld : name ∈ r.versions.map PolicyVersion.version) :
    (∃ p ∈ r.versions, p.version = name ∧ r.active = .ok p) ↔ name ≠ "" ∨ r.current = "" := by
  have hname : r.activeName = if name = "" then r.current else name := by simp [activeName, hpinned]
  constructor
  · rintro ⟨p, -, hversion, hactive⟩
    by_cases hempty : name = ""
    · rw [active, hname, if_pos hempty] at hactive
      exact Or.inr ((find_version hactive).symm.trans (hversion.trans hempty))
    · exact Or.inl hempty
  · intro h
    have hname : r.activeName = name := by
      rw [hname]
      split
      · next hempty => exact (h.resolve_left fun hne => hne hempty).trans hempty.symm
      · rfl
    obtain ⟨p, hfind⟩ := find_of_mem hheld
    refine ⟨p, find_mem hfind, find_version hfind, ?_⟩
    rw [active, hname, hfind]

end Registry

namespace Operation

/-- Whether a pin outlasts the operation: it sets or lifts none, and does not reset the registry. -/
def SparesPin (o : Operation) (w : World) : Prop :=
  match o with
  | .pin _ => ∃ e, (o.apply w).1 = .error e
  | .reset => False
  | .add _ | .update .. | .remove _ | .reorder _ | .cache .. | .fetch .. | .run .. => True

theorem changed_cases (w : World) (done : Except RegistryError Registry) :
    (∃ e, (w.changed done).1 = .error e ∧ (w.changed done).2 = w) ∨
      ∃ r, done = .ok r ∧ (w.changed done).1 = .ok .nothing ∧ (w.changed done).2 = w.withRegistry r := by
  cases done with
  | error e => exact Or.inl ⟨_, rfl, rfl⟩
  | ok r => exact Or.inr ⟨r, rfl, rfl, rfl⟩

theorem pin_done {w : World} {name : String} (h : ((pin (some name)).apply w).1 = .ok .nothing) :
    name ∈ w.registry.versions.map PolicyVersion.version ∧
      ((pin (some name)).apply w).2.registry = { w.registry with pinned := some name } := by
  simp only [apply] at h ⊢
  rcases changed_cases w (w.registry.pin (some name)) with ⟨e, herror, -⟩ | ⟨r, hpin, -, hstored⟩
  · cases herror.symm.trans h
  · rw [hstored]
    exact Registry.pin_ok hpin

theorem SparesPin.sameNames {o : Operation} {w : World} (h : o.SparesPin w) :
    w.registry.SameNames (o.apply w).2.registry := by
  have hedits (hedits : o.editsRules = true) : w.registry.SameNames (o.apply w).2.registry := by
    have hinside := editsRules_inside (w := w) hedits
    exact ⟨hinside.currentAs, hinside.pinned, hinside.names⟩
  have hfetches (hfetches : o.onlyFetches = true) : w.registry.SameNames (o.apply w).2.registry :=
    onlyFetches_preserves (Registry.SameNames.untouched w.registry) hfetches ⟨rfl, rfl, rfl⟩
  cases o with
  | add | update | remove | reorder => exact hedits rfl
  | fetch | run => exact hfetches rfl
  | reset => exact h.elim
  | pin version =>
    obtain ⟨e, he⟩ := h
    simp only [apply] at he ⊢
    rcases changed_cases w (w.registry.pin version) with ⟨_, -, hsame⟩ | ⟨r, -, hdone, -⟩
    · rw [hsame]
      exact ⟨rfl, rfl, rfl⟩
    · cases hdone.symm.trans he
  | cache version mark =>
    simp only [apply]
    rcases changed_cases w (w.registry.markCached version mark) with ⟨_, -, hsame⟩ | ⟨r, hmark, -, hstored⟩
    · rw [hsame]
      exact ⟨rfl, rfl, rfl⟩
    · rw [hstored]
      exact Registry.markCached_sameNames hmark

end Operation

theorem World.Course.sameNames {v w : World} (h : Course Operation.SparesPin v w) : v.registry.SameNames w.registry :=
  h.preserves (Registry.SameNames.untouched v.registry) (fun _ _ ho hx => hx.trans ho.sameNames) ⟨rfl, rfl, rfl⟩

namespace Engine

variable {σ : Type} {observer : Observer σ}

theorem run_reports {e : Engine} {t : Transaction} {u : User} {kept : σ} {w : World} {result : RunResult}
    (h : (e.run t u observer kept w).1 = .ok result) :
    ∃ p, w.registry.active = .ok p ∧ result.audit.policyVersion = p.version ∧
      result.audit.pinned = w.registry.isPinned := by
  obtain ⟨j, r, w₁, r', w₂, hbegin, -, hconclude⟩ := run_eq_ok (Prod.ext h rfl)
  obtain ⟨hactive, -, -, -, hpinned, -⟩ := begin_ok hbegin
  obtain ⟨weights, audited, ended, nudges, -, -, rfl⟩ := conclude_ok hconclude
  exact ⟨j.policy, hactive, rfl, hpinned⟩

end Engine

namespace World

variable {w x : World} {name : String}

/-- A pin outlasts every course of operations that sets and lifts no pin and does not reset the registry. The version of
that name is in force all the while, and reported by every run, exactly if the name is not empty or the current name is
empty as well. -/
theorem pinned_until_lifted (hpin : ((Operation.pin (some name)).apply w).1 = .ok .nothing)
    (h : Course Operation.SparesPin ((Operation.pin (some name)).apply w).2 x) :
    x.registry.isPinned = true ∧
      ((∃ p ∈ x.registry.versions, p.version = name ∧ x.registry.active = .ok p) ↔
        name ≠ "" ∨ w.registry.current = "") ∧
        ∀ {σ : Type} (observer : Observer σ) (e : Engine) (t : Transaction) (u : User) (kept : σ) (result : RunResult),
          (e.run t u observer kept x).1 = .ok result → result.audit.pinned = true ∧
            (result.audit.policyVersion = name ↔ name ≠ "" ∨ w.registry.current = "") := by
  obtain ⟨hheld, hregistry⟩ := Operation.pin_done hpin
  have hsame := h.sameNames
  rw [hregistry] at hsame
  have hpinned : x.registry.pinned = some name := hsame.pinned
  have hcurrent : x.registry.current = w.registry.current := congrArg Registry.nameOf hsame.currentAs
  have hisPinned : x.registry.isPinned = true := by simp [Registry.isPinned, hpinned]
  have hforce := Registry.active_of_pinned_iff hpinned (hsame.names ▸ hheld)
  rw [hcurrent] at hforce
  refine ⟨hisPinned, hforce, ?_⟩
  intro σ observer e t u kept result hrun
  obtain ⟨p, hactive, hversion, hreported⟩ := Engine.run_reports hrun
  refine ⟨hreported.trans hisPinned, ?_⟩
  rw [← hforce, hversion]
  constructor
  · intro hname
    exact ⟨p, Registry.find_mem hactive, hname, hactive⟩
  · rintro ⟨q, -, hname, hq⟩
    cases hq.symm.trans hactive
    exact hname

/-- The pinned version is edited, marked as not cached, and outlasts an attempt to pin one that is not there. -/
theorem pinned_until_lifted_through_edits :
    let w := ((Operation.pin (some "2.0.0")).apply Sample.baseline).2
    let x := Operation.applyAll
      [.remove "rule_high_apr", .cache "2.0.0" (.bool false), .update "rule_gas_boost" [("priority", .int 3)]] w
    x.registry.isPinned = true ∧ ∃ p ∈ ((Operation.pin (some "9.9.9")).apply x).2.registry.versions,
      p.version = "2.0.0" ∧ ((Operation.pin (some "9.9.9")).apply x).2.registry.active = .ok p := by
  intro w x
  have hx : Course Operation.SparesPin w x := by
    refine Course.applyAll _ ?_ .start
    simp [Operation.SparesPin]
  have hrefused : Operation.SparesPin (.pin (some "9.9.9")) x := ⟨_, rfl⟩
  constructor
  · exact (pinned_until_lifted rfl hx).1
  · exact (pinned_until_lifted rfl (hx.apply _ hrefused)).2.1.mpr (Or.inl (by decide))

end World

namespace Sample

/-- A registry with a version of no name beside the current one. -/
def nameless : World :=
  World.opened ⟨some [{ blank with version := "" }, blank], .text "1.0.0", .null⟩ clock

end Sample

theorem World.pinned_nameless_not_in_force :
    ((Operation.pin (some "")).apply Sample.nameless).1 = .ok .nothing ∧
      ((Operation.pin (some "")).apply Sample.nameless).2.registry.isPinned = true ∧
        ¬∃ p, ((Operation.pin (some "")).apply Sample.nameless).2.registry.active = .ok p ∧ p.version = "" := by
  refine ⟨rfl, rfl, ?_⟩
  rintro ⟨p, hactive, hversion⟩
  have hcurrent : ((Operation.pin (some "")).apply Sample.nameless).2.registry.active = .ok Sample.blank := rfl
  cases hcurrent.symm.trans hactive
  exact absurd hversion (by decide)

end WalletRouting
