import WalletRouting.Proofs.Policy.Active
import WalletRouting.Proofs.Ruling.Settling

/-! # Encounters

A policy meets a wallet rule by rule, in order, and instrument by instrument. What it decides comes from these
encounters alone; `Ruling.ofEncounters` is the decision they make. How a rule fared, and what the forced instrument
is called, is told beside the decision and does not bear on it.
-/
namespace WalletRouting
set_option autoImplicit false

/-- A rule that takes part and an eligible instrument that its condition holds of. -/
structure Encounter where
  rule : Rule
  instrument : Instrument

namespace Encounter

def id (e : Encounter) : String := e.instrument.id

def forces (e : Encounter) : Bool := e.rule.type = .hard && e.rule.action.type = .force

def excludes (e : Encounter) : Bool :=
  e.rule.action.type = .block || (e.rule.action.type = .exclude && e.rule.action.targets e.instrument)

def boosts (e : Encounter) : Bool := e.rule.action.type = .boost && e.rule.action.targets e.instrument

def penalizes (e : Encounter) : Bool := e.rule.action.type = .penalize && e.rule.action.targets e.instrument

/-- Whether anything comes of the encounter: a soft rule forces nothing, and a gate may be closed. -/
def counts (e : Encounter) : Bool := e.forces || e.excludes || e.boosts || e.penalizes

/-- Why the instrument is excluded, where it is. -/
def reason (e : Encounter) : String :=
  if e.rule.action.type = .block then Ruling.blockReason else e.rule.action.reason

/-- The last encounter of a kind. -/
def lastWhere (p : Encounter → Bool) (met : List Encounter) : Option Encounter := (met.filter p).getLast?

def excludesId (id : String) (e : Encounter) : Bool := e.excludes && e.id = id

theorem lastWhere_eq_none_iff {p : Encounter → Bool} {met : List Encounter} :
    lastWhere p met = none ↔ ∀ e ∈ met, p e = false := by
  simp [lastWhere]

theorem mem_of_lastWhere {p : Encounter → Bool} {met : List Encounter} {e : Encounter} (h : lastWhere p met = some e) :
    e ∈ met ∧ p e = true := List.mem_filter.mp (List.mem_of_getLast? h)

theorem exists_lastWhere {p : Encounter → Bool} {met : List Encounter} {e : Encounter} (he : e ∈ met)
    (hp : p e = true) : ∃ last, lastWhere p met = some last := by
  rw [← Option.isSome_iff_exists, ← Option.ne_none_iff_isSome]
  intro hnone
  rw [lastWhere_eq_none_iff.mp hnone e he] at hp
  cases hp

end Encounter

theorem foldl_last {α β : Type} (v : α → β) (l : List α) (b : β) :
    l.foldl (fun _ a => v a) b = (l.getLast?.map v).getD b := by
  induction l generalizing b with
  | nil => rfl
  | cons a rest ih =>
    rw [List.foldl_cons, ih, List.getLast?_cons]
    cases rest.getLast? <;> rfl

/-- A fold that a projection follows on some elements only is, seen through it, a fold over those. -/
theorem foldl_project {σ α β : Type} (g : σ → β) (p : α → Bool) (f : β → α → β) (step : σ → α → σ)
    (hit : ∀ s a, p a = true → g (step s a) = f (g s) a) (miss : ∀ s a, p a = false → g (step s a) = g s)
    (l : List α) (s : σ) : g (l.foldl step s) = (l.filter p).foldl f (g s) := by
  induction l generalizing s with
  | nil => rfl
  | cons a rest ih =>
    rw [List.foldl_cons, ih]
    cases h : p a with
    | true => simp [h, hit s a h]
    | false => simp [h, miss s a h]

namespace Ruling

/-- Every encounter of the rules with the wallet. -/
def encounters (rules : List Rule) (t : Transaction) (instruments : List Instrument) (u : User) (now : Int) :
    List Encounter :=
  (Rule.current now rules).flatMap fun r =>
    (instruments.filter fun i => i.eligible && r.condition.holds t i u).map (Encounter.mk r)

theorem mem_encounters {rules : List Rule} {t : Transaction} {instruments : List Instrument} {u : User} {now : Int}
    {e : Encounter} :
    e ∈ encounters rules t instruments u now ↔
      e.rule ∈ Rule.current now rules ∧ e.instrument ∈ instruments ∧ e.instrument.eligible = true ∧
        e.rule.condition.holds t e.instrument u = true := by
  simp only [encounters, List.mem_flatMap, List.mem_map, List.mem_filter, Bool.and_eq_true]
  constructor
  · rintro ⟨r, hr, i, ⟨hi, heligible, hholds⟩, rfl⟩
    exact ⟨hr, hi, heligible, hholds⟩
  · rintro ⟨hr, hi, heligible, hholds⟩
    exact ⟨e.rule, hr, e.instrument, ⟨hi, heligible, hholds⟩, rfl⟩

/-- The ruling without what is only told beside it. -/
def decided (s : Ruling) : Ruling := { s with forcedName := none, matched := [], failed := [] }

def Tally.decided (t : Tally) : Tally := { t with ruling := t.ruling.decided }

/-- What an encounter does, whatever the instruments are called. -/
def meet (t : Tally) (e : Encounter) : Tally := hit e.rule [] t e.instrument

/-- The tally of encounters one after the other. -/
def tallyOf (met : List Encounter) : Tally := met.foldl meet ⟨{}, []⟩

def ofEncounters (met : List Encounter) : Ruling := (tallyOf met).pending.foldl settle (tallyOf met).ruling

theorem decided_hit (r : Rule) (names : Keyed String) (t : Tally) (i : Instrument) :
    (hit r names t i).decided = meet t.decided ⟨r, i⟩ := by
  unfold meet hit
  cases r.action.type with
  | force =>
    dsimp only
    split
    · simp only [Tally.decided, decided, force]
      cases r.action.target <;> rfl
    · rfl
  | exclude | boost | penalize =>
    dsimp only
    split <;> rfl
  | block => rfl

theorem decided_hits (r : Rule) (names : Keyed String) (touched : List Instrument) (t : Tally) :
    (touched.foldl (hit r names) t).decided = (touched.map (Encounter.mk r)).foldl meet t.decided := by
  rw [List.foldl_map]
  exact (List.foldl_hom Tally.decided fun t i => (decided_hit r names t i).symm).symm

theorem decided_applyRule (t : Transaction) (u : User) (instruments : List Instrument) (names : Keyed String)
    (now : Int) (tally : Tally) (r : Rule) :
    (applyRule t u instruments names now tally r).decided =
      if r.expired now then tally.decided
      else ((hits r t u instruments).map (Encounter.mk r)).foldl meet tally.decided := by
  unfold applyRule
  split
  · rfl
  · rw [← decided_hits r names]
    dsimp only
    split <;> rfl

theorem decided_tally (rules : List Rule) (t : Transaction) (instruments : List Instrument) (u : User)
    (now : Int) :
    (tally rules t instruments u now).decided = tallyOf (encounters rules t instruments u now) := by
  unfold tally tallyOf encounters Rule.current
  change _ = List.foldl meet (Tally.decided ⟨{}, []⟩) _
  generalize (⟨{}, []⟩ : Tally) = start
  induction Rule.active rules generalizing start with
  | nil => rfl
  | cons r rest ih =>
    rw [List.foldl_cons, ih, decided_applyRule]
    cases h : r.expired now with
    | true => simp [h]
    | false => simp [h, hits]

theorem decided_settle (s : Ruling) (entry : String × Pending) : (settle s entry).decided = settle s.decided entry := by
  have hyields : s.decided.yields entry.1 = s.yields entry.1 := rfl
  cases h : s.yields entry.1 with
  | true =>
    rw [settle_of_yields h, settle_of_yields (hyields.trans h)]
    rfl
  | false =>
    rw [settle_of_not_yields h, settle_of_not_yields (hyields.trans h)]
    rfl

theorem decided_settles (pending : Keyed Pending) (s : Ruling) :
    (pending.foldl settle s).decided = pending.foldl settle s.decided :=
  (List.foldl_hom decided fun s entry => (decided_settle s entry).symm).symm

theorem decided_evaluate (rules : List Rule) (t : Transaction) (instruments : List Instrument) (u : User)
    (now : Int) :
    (evaluate rules t instruments u now).decided = ofEncounters (encounters rules t instruments u now) := by
  unfold evaluate ofEncounters
  rw [← decided_tally, decided_settles]
  rfl

theorem meet_of_forces (t : Tally) {e : Encounter} (h : e.forces = true) :
    meet t e = { t with ruling := force e.rule [] t.ruling } := by
  simp only [Encounter.forces, Bool.and_eq_true, decide_eq_true_eq] at h
  simp only [meet, hit, h.1, h.2, if_true]

theorem meet_of_excludes (t : Tally) {e : Encounter} (h : e.excludes = true) :
    meet t e = exclude e.rule e.reason e.instrument t := by
  simp only [Encounter.excludes, Bool.or_eq_true, Bool.and_eq_true, decide_eq_true_eq] at h
  rcases h with hblock | ⟨hexclude, htargets⟩
  · simp only [meet, hit, hblock, Encounter.reason, if_true]
  · simp only [meet, hit, hexclude, htargets, Encounter.reason, if_true, reduceCtorEq, if_false]

theorem meet_of_boosts (t : Tally) {e : Encounter} (h : e.boosts = true) :
    meet t e = { t with ruling := boost e.rule e.id t.ruling } := by
  simp only [Encounter.boosts, Bool.and_eq_true, decide_eq_true_eq] at h
  simp only [meet, hit, h.1, h.2, if_true]
  rfl

theorem meet_of_penalizes (t : Tally) {e : Encounter} (h : e.penalizes = true) :
    meet t e = { t with ruling := penalize e.rule e.id t.ruling } := by
  simp only [Encounter.penalizes, Bool.and_eq_true, decide_eq_true_eq] at h
  simp only [meet, hit, h.1, h.2, if_true]
  rfl

theorem meet_of_not_counts (t : Tally) {e : Encounter} (h : e.counts = false) : meet t e = t := by
  simp only [Encounter.counts, Bool.or_eq_false_iff, Encounter.forces, Encounter.excludes, Encounter.boosts,
    Encounter.penalizes] at h
  unfold meet hit
  cases htype : e.rule.action.type <;> simp_all

theorem meet_cases (t : Tally) (e : Encounter) :
    e.forces = true ∧ meet t e = { t with ruling := force e.rule [] t.ruling } ∨
      e.excludes = true ∧ meet t e = exclude e.rule e.reason e.instrument t ∨
      e.boosts = true ∧ meet t e = { t with ruling := boost e.rule e.id t.ruling } ∨
      e.penalizes = true ∧ meet t e = { t with ruling := penalize e.rule e.id t.ruling } ∨
      e.counts = false ∧ meet t e = t := by
  cases hcounts : e.counts with
  | false => exact Or.inr (Or.inr (Or.inr (Or.inr ⟨rfl, meet_of_not_counts t hcounts⟩)))
  | true =>
    simp only [Encounter.counts, Bool.or_eq_true] at hcounts
    rcases hcounts with ((h | h) | h) | h
    · exact Or.inl ⟨h, meet_of_forces t h⟩
    · exact Or.inr (Or.inl ⟨h, meet_of_excludes t h⟩)
    · exact Or.inr (Or.inr (Or.inl ⟨h, meet_of_boosts t h⟩))
    · exact Or.inr (Or.inr (Or.inr (Or.inl ⟨h, meet_of_penalizes t h⟩)))

/-- What an encounter leaves as it was. -/
structure Leaves (e : Encounter) (t t' : Tally) : Prop where
  forcing : e.forces = false → t'.ruling.hardOverride = t.ruling.hardOverride ∧
    t'.ruling.forcedId = t.ruling.forcedId ∧ t'.ruling.forcingRule = t.ruling.forcingRule
  boosts : e.boosts = false → t'.ruling.boosts = t.ruling.boosts ∧ t'.ruling.boostRules = t.ruling.boostRules
  penalties : e.penalizes = false → t'.ruling.penalties = t.ruling.penalties ∧
    t'.ruling.penaltyRules = t.ruling.penaltyRules
  pending : e.excludes = false → t'.pending = t.pending
  settled : t'.ruling.excluded = t.ruling.excluded ∧ t'.ruling.exclusions = t.ruling.exclusions ∧
    t'.ruling.overridden = t.ruling.overridden

theorem meet_leaves (t : Tally) (e : Encounter) : Leaves e t (meet t e) := by
  have hclash {kind : Bool} {P : Prop} (h : kind = true) (hnot : kind = false) : P :=
    absurd (h.symm.trans hnot) (by decide)
  rcases meet_cases t e with ⟨h, hmeet⟩ | ⟨h, hmeet⟩ | ⟨h, hmeet⟩ | ⟨h, hmeet⟩ | ⟨-, hmeet⟩
  · rw [hmeet]
    exact ⟨hclash h, fun _ => ⟨rfl, rfl⟩, fun _ => ⟨rfl, rfl⟩, fun _ => rfl, rfl, rfl, rfl⟩
  · rw [hmeet]
    exact ⟨fun _ => ⟨rfl, rfl, rfl⟩, fun _ => ⟨rfl, rfl⟩, fun _ => ⟨rfl, rfl⟩, hclash h, rfl, rfl, rfl⟩
  · rw [hmeet]
    exact ⟨fun _ => ⟨rfl, rfl, rfl⟩, hclash h, fun _ => ⟨rfl, rfl⟩, fun _ => rfl, rfl, rfl, rfl⟩
  · rw [hmeet]
    exact ⟨fun _ => ⟨rfl, rfl, rfl⟩, fun _ => ⟨rfl, rfl⟩, hclash h, fun _ => rfl, rfl, rfl, rfl⟩
  · rw [hmeet]
    exact ⟨fun _ => ⟨rfl, rfl, rfl⟩, fun _ => ⟨rfl, rfl⟩, fun _ => ⟨rfl, rfl⟩, fun _ => rfl, rfl, rfl, rfl⟩

/-- Encounters that nothing comes of may as well not take place. -/
theorem ofEncounters_filter_counts (met : List Encounter) :
    ofEncounters (met.filter Encounter.counts) = ofEncounters met := by
  have h : tallyOf (met.filter Encounter.counts) = tallyOf met :=
    (foldl_project (fun t => t) Encounter.counts meet meet (fun _ _ _ => rfl) (fun t _ => meet_of_not_counts t)
      met _).symm
  rw [ofEncounters, h, ofEncounters]

end Ruling

end WalletRouting
