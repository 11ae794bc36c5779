import WalletRouting.Proofs.Resolution.Choice
import WalletRouting.Proofs.Run.Selection

/-! # Exclusions among the children

The table of a resolution shows which children a rule or a veto leaves out. The optimal score keeps to it: it settles on a
child that is left out only where all are. The other strategies settle on a child before any is scored; they take part in
the table so that it is complete, and their choice is the same whatever the table says.
-/
namespace WalletRouting
set_option autoImplicit false

open ScoreTable (gate?)

namespace ScoreTable

variable {s : Guidance} {assessments : Keyed RiskAssessment} {c d : Credential}

theorem gate?_isSome_iff_of_eligible (hc : c.eligible = true) :
    (gate? s assessments none (.card c)).isSome = true ↔
      s.reason c.id ≠ "" ∨ s.hardOverride = false ∧ ∃ a, assessments.get? c.id = some a ∧ a.veto = true := by
  have hid : (Instrument.card c).id = c.id := rfl
  have heligible : (Instrument.card c).eligible = true := hc
  rw [Option.isSome_iff_ne_none, ne_eq, gate?_eq_none_iff, hid, heligible]
  by_cases hreason : s.reason c.id = "" <;> cases s.hardOverride <;> simp [hreason]

theorem gate?_of_id_eq (hc : c.eligible = true) (hd : d.eligible = true) (hid : c.id = d.id) :
    (gate? s assessments none (.card c)).isSome = (gate? s assessments none (.card d)).isSome := by
  rw [Bool.eq_iff_iff, gate?_isSome_iff_of_eligible hc, gate?_isSome_iff_of_eligible hd, hid]

end ScoreTable

namespace Resolution

theorem eligible_of_mem {r : RoutingCredential} {c : Credential} (h : c ∈ eligibleChildren r) : c.eligible = true :=
  (List.mem_filter.mp h).2

/-- What the table of a resolution has to say of the child that was settled on. -/
structure Heeds (r : RoutingCredential) (s : Guidance) (resolved : Resolved) : Prop where
  shown : ∃ row ∈ resolved.resolution.rows, row.credentialId = resolved.resolution.child.id
  told : ∀ row ∈ resolved.resolution.rows, row.credentialId = resolved.resolution.child.id →
    (row.excluded = true ↔ s.reason resolved.resolution.child.id ≠ "" ∨ s.hardOverride = false ∧
      ∃ a, resolved.assessments.get? resolved.resolution.child.id = some a ∧ a.veto = true)
  optimal : r.strategy = .optimalScore →
    (∃ c ∈ eligibleChildren r, gate? s resolved.assessments none (.card c) = none) →
      ∀ row ∈ resolved.resolution.rows, row.credentialId = resolved.resolution.child.id → row.excluded = false

variable {r : RoutingCredential} {t : Transaction} {u : User} {s : Guidance} {limits : GivenLimits} {now : Value}
  {g : Generator} {resolved : Resolved} {first : Credential} {rest : List Credential} {table : ScoreTable}

theorem Settled.excluded_eq (h : Settled r t u s limits g first rest table resolved) {c : Credential}
    (hc : c ∈ eligibleChildren r) {row : ScoreRow} (hrow : row ∈ resolved.resolution.rows)
    (hid : row.credentialId = c.id) : row.excluded = (gate? s resolved.assessments none (.card c)).isSome := by
  rw [h.rows] at hrow
  obtain ⟨i, hi, hcredential, hexcluded⟩ := (ScoreTable.ofInstruments_ranks h.scored).sound row hrow
  obtain ⟨d, hd, rfl⟩ := List.mem_map.mp hi
  rw [← h.eligible] at hd
  rw [hexcluded]
  exact ScoreTable.gate?_of_id_eq (eligible_of_mem hd) (eligible_of_mem hc) (hcredential.symm.trans hid)

theorem Settled.exists_row (h : Settled r t u s limits g first rest table resolved) {c : Credential}
    (hc : c ∈ eligibleChildren r) : ∃ row ∈ resolved.resolution.rows, row.credentialId = c.id := by
  rw [h.eligible] at hc
  obtain ⟨row, hrow, hid, -⟩ := (ScoreTable.ofInstruments_ranks h.scored).complete _
    (List.mem_map_of_mem (f := Instrument.card) hc)
  rw [h.rows]
  exact ⟨row, hrow, hid⟩

/-- By the optimal score a child that is left out is chosen only where every child is. -/
theorem Settled.not_excluded (h : Settled r t u s limits g first rest table resolved)
    (hstrategy : r.strategy = .optimalScore) {c : Credential} (hc : c ∈ eligibleChildren r)
    (hpasses : gate? s resolved.assessments none (.card c) = none)
    (hchild : resolved.resolution.child ∈ eligibleChildren r) {row : ScoreRow}
    (hrow : row ∈ resolved.resolution.rows) (hid : row.credentialId = resolved.resolution.child.id) :
    row.excluded = false := by
  rcases h.optimal hstrategy with ⟨best, hbest, hsame⟩ | ⟨hnone, -⟩
  · have hopen := List.find?_some hbest
    rw [h.excluded_eq hchild hrow hid, ← h.excluded_eq hchild (List.mem_of_find?_eq_some hbest) hsame.symm]
    simpa using hopen
  · obtain ⟨shown, hmem, hcard⟩ := h.exists_row hc
    have hexcluded := h.excluded_eq hc hmem hcard
    rw [hpasses] at hexcluded
    have hall := List.find?_eq_none.mp hnone shown hmem
    rw [hexcluded] at hall
    exact absurd rfl hall

theorem choose_eq_of_ne {strategy : Strategy} (hstrategy : strategy ≠ .optimalScore) (first : Credential)
    (rest : List Credential) (index : Nat) (table other : ScoreTable) :
    choose strategy first rest index table = choose strategy first rest index other := by
  cases strategy with
  | optimalScore => exact absurd rfl hstrategy
  | roundRobin => rfl
  | lowestUtilization => rfl

/-- The table says of the child whether a rule or a veto leaves it out, and by the optimal score that is so only where no
child passes. Any other strategy settles on the same child for whatever rules, purchase and limits. -/
theorem resolve_heeds (h : (resolve r t u s limits now g).1 = .ok resolved) :
    Heeds r s resolved ∧
      ∀ t' u' s' limits' now' resolved', r.strategy ≠ .optimalScore →
        (resolve r t' u' s' limits' now' g).1 = .ok resolved' →
          resolved'.resolution.child = resolved.resolution.child := by
  have hchild := resolve_child_mem h
  obtain ⟨first, rest, table, hsettled⟩ := exists_settled h
  refine ⟨⟨hsettled.exists_row hchild, ?_, ?_⟩, ?_⟩
  · intro row hrow hid
    rw [hsettled.excluded_eq hchild hrow hid]
    exact ScoreTable.gate?_isSome_iff_of_eligible (eligible_of_mem hchild)
  · rintro hstrategy ⟨c, hc, hpasses⟩ row hrow hid
    exact hsettled.not_excluded hstrategy hc hpasses hchild hrow hid
  · intro t' u' s' limits' now' resolved' hstrategy h'
    obtain ⟨first', rest', table', hsettled'⟩ := exists_settled h'
    obtain ⟨rfl, rfl⟩ := List.cons.inj (hsettled.eligible.symm.trans hsettled'.eligible)
    rw [hsettled.child, hsettled'.child, choose_eq_of_ne hstrategy]

end Resolution

namespace Sample

/-- A routing credential with two children, of which the first is also a card of the user's. -/
def pair (strategy : Strategy) : RoutingCredential := ⟨(card "router").toTerms, [card "a", card "b"], strategy⟩

/-- What is ruled where a rule excludes that card. -/
def barring : Ruling := Ruling.evaluate [exclusion "a"] purchase user.instruments user 0

def paired (strategy : Strategy) : Except ResolutionError Resolved × Generator :=
  Resolution.resolve (pair strategy) purchase user barring.guidance engine.limits (.num (.int 0)) ⟨0, 0⟩

end Sample

namespace Resolution

theorem resolve_heeds_barring :
    ∃ resolved, (Sample.paired .optimalScore).1 = .ok resolved ∧
      Heeds (Sample.pair .optimalScore) Sample.barring.guidance resolved ∧ resolved.resolution.child.id = "b" := by
  have hok : (Sample.paired .optimalScore).1.toOption.map (fun x => x.resolution.child.id) = some "b" := by
    decide +kernel
  rcases hresolve : Sample.paired .optimalScore with ⟨_ | resolved, g⟩
  · rw [hresolve] at hok
    cases hok
  · rw [hresolve] at hok
    have h : (Sample.paired .optimalScore).1 = .ok resolved := congrArg Prod.fst hresolve
    exact ⟨resolved, rfl, (resolve_heeds h).1, Option.some.inj hok⟩

/-- One of the pair is chosen that a rule excludes, while the other passes the gates. -/
def SettlesOnExcluded (strategy : Strategy) : Prop :=
  ∃ resolved, (Sample.paired strategy).1 = .ok resolved ∧
    (∃ c ∈ eligibleChildren (Sample.pair strategy),
      gate? Sample.barring.guidance resolved.assessments none (.card c) = none) ∧
      ∃ row ∈ resolved.resolution.rows, row.credentialId = resolved.resolution.child.id ∧ row.excluded = true

/-- Whether another passes, and whether the one that is chosen is excluded. -/
def excludedRead (strategy : Strategy) : Option (Bool × Bool) :=
  (Sample.paired strategy).1.toOption.map fun x =>
    ((eligibleChildren (Sample.pair strategy)).any fun c =>
        (gate? Sample.barring.guidance x.assessments none (.card c)).isNone,
      x.resolution.rows.any fun row => row.credentialId = x.resolution.child.id && row.excluded)

theorem settlesOnExcluded_of_read {strategy : Strategy} (h : excludedRead strategy = some (true, true)) :
    SettlesOnExcluded strategy := by
  unfold excludedRead at h
  cases hresolve : (Sample.paired strategy).1 with
  | error e =>
    rw [hresolve] at h
    cases h
  | ok resolved =>
    rw [hresolve] at h
    obtain ⟨hpasses, hexcluded⟩ := Prod.ext_iff.mp (Option.some.inj h)
    refine ⟨resolved, hresolve, ?_, ?_⟩
    · simpa using hpasses
    · simpa using hexcluded

/-- Without an override, a turn and the lowest utilization can settle on a child that a rule excludes. -/
theorem resolve_settles_on_excluded :
    Sample.barring.hardOverride = false ∧ SettlesOnExcluded .roundRobin ∧ SettlesOnExcluded .lowestUtilization := by
  have hturn : excludedRead .roundRobin = some (true, true) := by decide +kernel
  have hleast : excludedRead .lowestUtilization = some (true, true) := by decide +kernel
  have hfree : Sample.barring.hardOverride = false := by decide +kernel
  exact ⟨hfree, settlesOnExcluded_of_read hturn, settlesOnExcluded_of_read hleast⟩

end Resolution

end WalletRouting
