import WalletRouting.Proofs.Resolution.Outcome

/-! # Assessments beside each other

Draws go by position and what is stored goes by id. An assessment draws as many words whatever it finds, so what is
stored for an id is what the last instrument of that id would be found to be on its own, after the draws that belong to
the positions before it.
-/
namespace WalletRouting
set_option autoImplicit false

/-- The last instrument of its id, and where it stands. -/
structure LastAt (instruments : List Instrument) (k : Nat) (i : Instrument) : Prop where
  here : instruments[k]? = some i
  later : ∀ other ∈ instruments.drop (k + 1), other.id ≠ i.id

theorem exists_lastAt {instruments : List Instrument} {id : String} (h : id ∈ instruments.map fun i => i.id) :
    ∃ k i, LastAt instruments k i ∧ i.id = id := by
  induction instruments with
  | nil => cases h
  | cons first rest ih =>
    by_cases hrest : id ∈ rest.map fun i => i.id
    · obtain ⟨k, i, hlast, hid⟩ := ih hrest
      exact ⟨k + 1, i, ⟨hlast.here, hlast.later⟩, hid⟩
    · obtain rfl : id = first.id := (List.mem_cons.mp h).resolve_right hrest
      refine ⟨0, first, ⟨rfl, ?_⟩, rfl⟩
      rintro other hother hid
      exact hrest (hid ▸ List.mem_map_of_mem hother)

theorem LastAt.of_ids {instruments others : List Instrument} {k : Nat} {i : Instrument} (h : LastAt instruments k i)
    (hids : others.map (fun i => i.id) = instruments.map fun i => i.id) (hhere : others[k]? = some i) :
    LastAt others k i := by
  refine ⟨hhere, ?_⟩
  intro other hother
  have hdrop : (others.drop (k + 1)).map (fun i => i.id) = (instruments.drop (k + 1)).map fun i => i.id := by
    rw [List.map_drop, hids, List.map_drop]
  have hmem : other.id ∈ (instruments.drop (k + 1)).map fun i => i.id := hdrop ▸ List.mem_map_of_mem hother
  obtain ⟨same, hsame, hid⟩ := List.mem_map.mp hmem
  exact hid ▸ h.later same hsame

namespace RiskAssessment

/-- Every instrument is assessed as it would be on its own, after two draws for each instrument before it. -/
theorem getElem?_assessEach (limits : RiskLimits) (t : Transaction) (u : User) (instruments : List Instrument)
    (g : Generator) (k : Nat) :
    (assessEach limits t u instruments g).1[k]? =
      instruments[k]?.map fun i => (assess limits t u i (GivenLimits.afterDraws (2 * k) g)).1 := by
  induction instruments generalizing g k with
  | nil => rfl
  | cons i rest ih =>
    cases k with
    | zero => rfl
    | succ k =>
      have hdraws : GivenLimits.afterDraws (2 * k) (assess limits t u i g).2 =
          GivenLimits.afterDraws (2 * (k + 1)) g := by
        rw [GivenLimits.afterDraws, GivenLimits.afterDraws, Generator.mk.injEq]
        refine ⟨rfl, ?_⟩
        simp only [assess, Generator.unit, Generator.next_drawn]
        omega
      rw [assessEach]
      dsimp only
      rw [List.getElem?_cons_succ, List.getElem?_cons_succ, ih, hdraws]

theorem get?_assessEach (limits : RiskLimits) (t : Transaction) (u : User) {instruments : List Instrument}
    (g : Generator) {k : Nat} {i : Instrument} (h : LastAt instruments k i) :
    (Keyed.ofPairs ((assessEach limits t u instruments g).1.map fun a => (a.credentialId, a))).get? i.id =
      some (assess limits t u i (GivenLimits.afterDraws (2 * k) g)).1 := by
  apply Keyed.get?_ofPairs_of_last (k := k)
  · rw [List.getElem?_map, getElem?_assessEach, h.here]
    rfl
  · intro p hp
    have hids := congrArg (List.drop (k + 1)) (assessEach_ids limits t u instruments g)
    rw [← List.map_drop] at hp
    obtain ⟨a, ha, rfl⟩ := List.mem_map.mp hp
    have hid : a.credentialId ∈ (instruments.drop (k + 1)).map fun i => i.id := by
      rw [List.map_drop, ← hids, ← List.map_drop]
      exact List.mem_map_of_mem ha
    obtain ⟨other, hother, hsame⟩ := List.mem_map.mp hid
    exact hsame ▸ h.later other hother

end RiskAssessment

namespace GivenLimits

variable {limits : GivenLimits} {t : Transaction} {u : User} {instruments : List Instrument} {g after : Generator}
  {stored : Keyed RiskAssessment}

theorem assessEach_of_assessAll (h : limits.assessAll t u instruments g = (.ok stored, after)) :
    stored = Keyed.ofPairs ((RiskAssessment.assessEach limits.numbers t u instruments g).1.map
        fun a => (a.credentialId, a)) ∧
      after = (RiskAssessment.assessEach limits.numbers t u instruments g).2 := by
  unfold assessAll at h
  split at h
  · cases h
    exact ⟨rfl, rfl⟩
  · cases h
  · cases h
  · dsimp only at h
    split at h
    · cases h
    · cases h
      exact ⟨rfl, rfl⟩

/-- What is stored of instruments that do not interfere with each other. -/
structure Apart (limits : GivenLimits) (t : Transaction) (u : User) (instruments : List Instrument) (g : Generator)
    (stored : Keyed RiskAssessment) : Prop where
  keys : stored.keys = (instruments.map fun i => i.id).eraseDups
  found : ∀ id ∈ stored.keys, ∃ k i, LastAt instruments k i ∧ i.id = id
  alone : ∀ k i, LastAt instruments k i →
    stored.get? i.id = some (RiskAssessment.assess limits.numbers t u i (afterDraws (2 * k) g)).1
  unaffected : ∀ others k i stored', LastAt instruments k i →
    others.map (fun i => i.id) = instruments.map (fun i => i.id) → others[k]? = some i →
      (limits.assessAll t u others g).1 = .ok stored' → stored'.get? i.id = stored.get? i.id

theorem get?_assessAll (h : (limits.assessAll t u instruments g).1 = .ok stored) {k : Nat} {i : Instrument}
    (hlast : LastAt instruments k i) :
    stored.get? i.id = some (RiskAssessment.assess limits.numbers t u i (afterDraws (2 * k) g)).1 := by
  obtain ⟨rfl, -⟩ := assessEach_of_assessAll (Prod.ext h rfl)
  exact RiskAssessment.get?_assessEach limits.numbers t u g hlast

theorem keys_eq_eraseDups (h : (limits.assessAll t u instruments g).1 = .ok stored) :
    stored.keys = (instruments.map fun i => i.id).eraseDups := by
  obtain ⟨rfl, -⟩ := assessEach_of_assessAll (Prod.ext h rfl)
  rw [Keyed.keys_ofPairs, List.map_map]
  exact congrArg List.eraseDups (RiskAssessment.assessEach_ids limits.numbers t u instruments g)

/-- Numbers as limits are always enough. Whatever the limits are, where assessing returns it has drawn two words for
every instrument, and no assessment shows anything of another instrument. -/
theorem assessAll_apart (limits : GivenLimits) (t : Transaction) (u : User) (instruments : List Instrument)
    (g : Generator) :
    (limits.Usable →
        ∃ stored, limits.assessAll t u instruments g = (.ok stored, afterDraws (2 * instruments.length) g)) ∧
      ∀ stored after, limits.assessAll t u instruments g = (.ok stored, after) →
        after = afterDraws (2 * instruments.length) g ∧ Apart limits t u instruments g stored := by
  constructor
  · intro husable
    exact assessAll_of_usable husable t u instruments g
  · intro stored after h
    have hok : (limits.assessAll t u instruments g).1 = .ok stored := congrArg Prod.fst h
    refine ⟨?_, ?_⟩
    · rw [(assessEach_of_assessAll h).2, RiskAssessment.assessEach_snd]
      rfl
    · refine { keys := keys_eq_eraseDups hok, found := ?_, alone := fun k i => get?_assessAll hok, unaffected := ?_ }
      · intro id hid
        rw [keys_eq_eraseDups hok, List.mem_eraseDups] at hid
        exact exists_lastAt hid
      · intro others k i stored' hlast hids hhere hothers
        rw [get?_assessAll hok hlast, get?_assessAll hothers (hlast.of_ids hids hhere)]

/-- Of two instruments of one id the second counts, after the draws of the two before it. -/
theorem assessAll_apart_of_same_id :
    let instruments :=
      [.card (Sample.card "a"), .card (Sample.card "b"), .card { Sample.card "a" with network := .discover }]
    Sample.engine.limits.Usable ∧ ∃ stored,
      Sample.engine.limits.assessAll Sample.purchase Sample.user instruments ⟨7, 0⟩ = (.ok stored, ⟨7, 6⟩) ∧
        Apart Sample.engine.limits Sample.purchase Sample.user instruments ⟨7, 0⟩ stored ∧
          stored.keys = ["a", "b"] ∧
            (stored.get? "a").map (fun a => a.factors) = some ["Near credit limit", "Lower network acceptance"] := by
  intro instruments
  have happart := assessAll_apart Sample.engine.limits Sample.purchase Sample.user instruments ⟨7, 0⟩
  obtain ⟨stored, hok⟩ := happart.1 Sample.usable_limits
  have hstored := (happart.2 stored _ hok).2
  refine ⟨Sample.usable_limits, stored, hok, hstored, ?_, ?_⟩
  · rw [hstored.keys]
    decide
  · have hlast : LastAt instruments 2 (.card { Sample.card "a" with network := .discover }) :=
      ⟨rfl, by simp [instruments]⟩
    have halone := hstored.alone 2 _ hlast
    change stored.get? "a" = _ at halone
    rw [halone]
    decide +kernel

end GivenLimits

end WalletRouting
