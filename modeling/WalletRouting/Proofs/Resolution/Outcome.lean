import WalletRouting.Proofs.Draws.Position
import WalletRouting.Proofs.Resolution.Spending
import WalletRouting.Proofs.Run.Selection
import WalletRouting.Proofs.Score.Weights

/-! # What a resolution comes to

Without an eligible child a resolution fails and draws nothing. Otherwise it settles on an eligible child, assesses and
scores all of them, and says by its strategy which one it is: the first row that is not left out, the position that a
word draws, or the first of lowest utilization. A round robin draws that word before the children are assessed.
-/
namespace WalletRouting
set_option autoImplicit false

theorem RiskAssessment.assessEach_ids (limits : RiskLimits) (t : Transaction) (u : User) (instruments : List Instrument)
    (g : Generator) :
    (assessEach limits t u instruments g).1.map (fun a => a.credentialId) = instruments.map fun i => i.id := by
  induction instruments generalizing g with
  | nil => rfl
  | cons i rest ih =>
    rw [assessEach]
    dsimp only
    rw [List.map_cons, List.map_cons, ih]
    rfl

theorem GivenLimits.keys_assessAll {limits : GivenLimits} {t : Transaction} {u : User} {instruments : List Instrument}
    {g : Generator} {assessments : Keyed RiskAssessment}
    (h : (limits.assessAll t u instruments g).1 = .ok assessments) (id : String) :
    id ∈ assessments.keys ↔ ∃ i ∈ instruments, i.id = id := by
  unfold assessAll at h
  split at h
  · cases h
    simp
  · cases h
  · cases h
  · dsimp only at h
    split at h
    · cases h
    · cases h
      rw [Keyed.mem_keys_ofPairs, List.map_map]
      change id ∈ List.map (fun a : RiskAssessment => a.credentialId) _ ↔ _
      rw [RiskAssessment.assessEach_ids, List.mem_map]

namespace Resolution

/-- What a resolution holds that drew from `g`. -/
structure Meets (r : RoutingCredential) (t : Transaction) (u : User) (limits : GivenLimits) (g : Generator)
    (resolved : Resolved) : Prop where
  member : resolved.resolution.child ∈ r.children
  eligible : resolved.resolution.child.eligible = true
  rows : (resolved.resolution.rows.map ScoreRow.named).Perm ((eligibleChildren r).map fun c => (c.id, c.name))
  assessed : ∀ id, (∃ a, resolved.assessments.get? id = some a) ↔ ∃ c ∈ eligibleChildren r, c.id = id
  drawn : limits.assessAll t u ((eligibleChildren r).map Instrument.card) ⟨g.seed, g.drawn + turnCost r.strategy⟩ =
    (.ok resolved.assessments, ⟨g.seed, g.drawn + turnCost r.strategy + 2 * (eligibleChildren r).length⟩)
  optimal : r.strategy = .optimalScore →
    (∃ row, resolved.resolution.rows.find? (fun row => !row.excluded) = some row ∧
        resolved.resolution.child.id = row.credentialId) ∨
      (∀ row ∈ resolved.resolution.rows, row.excluded = true) ∧
        (eligibleChildren r).head? = some resolved.resolution.child
  turn : r.strategy = .roundRobin → ∃ i, (eligibleChildren r)[i]? = some resolved.resolution.child ∧
    Generator.Turn g.next.1.toNat (eligibleChildren r).length i
  least : r.strategy = .lowestUtilization → ∃ before behind,
    eligibleChildren r = before ++ resolved.resolution.child :: behind ∧
      (∀ c ∈ eligibleChildren r, ¬c.utilization < resolved.resolution.child.utilization) ∧
        ∀ c ∈ before, ¬c.utilization ≤ resolved.resolution.child.utilization

namespace Settled

variable {r : RoutingCredential} {t : Transaction} {u : User} {s : Guidance} {limits : GivenLimits} {g : Generator}
  {first : Credential} {rest : List Credential} {table : ScoreTable} {resolved : Resolved}

theorem named (h : Settled r t u s limits g first rest table resolved) :
    (resolved.resolution.rows.map ScoreRow.named).Perm ((eligibleChildren r).map fun c => (c.id, c.name)) := by
  have hnamed := ScoreTable.ofInstruments_named h.scored
  rw [List.map_map] at hnamed
  rw [h.rows, h.eligible]
  exact hnamed

theorem drawn (h : Settled r t u s limits g first rest table resolved) (hlimits : limits.Usable) :
    limits.assessAll t u ((eligibleChildren r).map Instrument.card) ⟨g.seed, g.drawn + turnCost r.strategy⟩ =
      (.ok resolved.assessments, ⟨g.seed, g.drawn + turnCost r.strategy + 2 * (eligibleChildren r).length⟩) := by
  have hassessed := h.assessed
  rw [turn_snd, ← h.eligible] at hassessed
  obtain ⟨assessments, hall⟩ := GivenLimits.assessAll_of_usable hlimits t u
    ((eligibleChildren r).map Instrument.card) ⟨g.seed, g.drawn + turnCost r.strategy⟩
  rw [hall] at hassessed
  cases hassessed
  rw [hall, List.length_map]

theorem assessed_iff (h : Settled r t u s limits g first rest table resolved) (id : String) :
    (∃ a, resolved.assessments.get? id = some a) ↔ ∃ c ∈ eligibleChildren r, c.id = id := by
  rw [← Keyed.mem_keys_iff, GivenLimits.keys_assessAll h.assessed, h.eligible]
  simp only [List.mem_map, exists_exists_and_eq_and]
  rfl

/-- A round robin settles on the child at its position, which is that of an eligible child. -/
theorem turn (h : Settled r t u s limits g first rest table resolved) (hstrategy : r.strategy = .roundRobin) :
    (eligibleChildren r)[(g.position (eligibleChildren r).length).1]? = some resolved.resolution.child := by
  have hchild := h.child
  rw [hstrategy, ← h.eligible] at hchild
  change _ = (first :: rest).getD (g.position (eligibleChildren r).length).1 first at hchild
  have hlt := (g.position_turn (eligibleChildren r).length).below (by rw [h.eligible]; exact Nat.succ_pos _)
  rw [hchild, ← h.eligible, List.getD_eq_getElem?_getD, List.getElem?_eq_getElem hlt]
  rfl

theorem least (h : Settled r t u s limits g first rest table resolved) (hstrategy : r.strategy = .lowestUtilization) :
    ∃ before behind, eligibleChildren r = before ++ resolved.resolution.child :: behind ∧
      (∀ c ∈ eligibleChildren r, ¬c.utilization < resolved.resolution.child.utilization) ∧
        ∀ c ∈ before, ¬c.utilization ≤ resolved.resolution.child.utilization := by
  obtain ⟨before, behind, hsplit, hleast, -⟩ := exists_least first rest
  have hchild := h.child
  rw [hstrategy] at hchild
  change _ = leastUtilized first rest at hchild
  rw [h.eligible, hchild]
  refine ⟨before, behind, hsplit, ?_, hleast.before⟩
  rw [hsplit, List.forall_mem_append, List.forall_mem_cons]
  exact ⟨fun c hc hlt => hleast.before c hc (Double.le_of_lt hlt), Double.not_lt_self _, hleast.behind⟩

end Settled

/-- Either no child is eligible, and the resolution fails without a draw; or it succeeds, at two draws for each eligible
child and one more for a turn, and holds what it is to hold. -/
theorem resolve_meets {u : User} {weights : Weights} {limits : GivenLimits} (hlimits : limits.Usable)
    (hweights : u.weights.normalize = .ok weights) (r : RoutingCredential) (t : Transaction) (s : Ruling) (now : Int)
    (g : Generator) :
    (∀ c ∈ r.children, c.eligible = false) ∧
        resolve r t u s.guidance limits (.num (.int now)) g = (.error (.noEligibleChild r.id), g) ∨
      (∃ c ∈ r.children, c.eligible = true) ∧ ∃ resolved, resolve r t u s.guidance limits (.num (.int now)) g =
          (.ok resolved, ⟨g.seed, g.drawn + turnCost r.strategy + 2 * (eligibleChildren r).length⟩) ∧
        Meets r t u limits g resolved := by
  by_cases hnone : eligibleChildren r = []
  · left
    refine ⟨?_, resolve_of_none hnone t u s.guidance limits (.num (.int now)) g⟩
    intro c hc
    simpa using List.filter_eq_nil_iff.mp hnone c hc
  · right
    obtain ⟨c, hc⟩ := List.exists_mem_of_ne_nil _ hnone
    obtain ⟨resolved, hresolve⟩ := resolve_of_eligible hlimits hweights hnone t s now g
    have hok : (resolve r t u s.guidance limits (.num (.int now)) g).1 = .ok resolved := congrArg Prod.fst hresolve
    obtain ⟨hmember, heligible⟩ := List.mem_filter.mp (resolve_child_mem hok)
    obtain ⟨first, rest, table, hsettled⟩ := exists_settled hok
    refine ⟨⟨c, List.mem_filter.mp hc⟩, resolved, ?_, hmember, heligible, hsettled.named, hsettled.assessed_iff,
      hsettled.drawn hlimits, ?_, ?_, hsettled.least⟩
    · rw [hresolve, cost, Nat.add_assoc]
    · intro hstrategy
      refine (hsettled.optimal hstrategy).imp id ?_
      rintro ⟨hall, hfirst⟩
      rw [hsettled.eligible, hfirst]
      exact ⟨fun row hrow => by simpa using List.find?_eq_none.mp hall row hrow, rfl⟩
    · intro hstrategy
      exact ⟨_, hsettled.turn hstrategy, g.position_turn _⟩

end Resolution

namespace Sample

/-- A routing credential with so many children of one id, and behind them so many of another. -/
def crowd (front back : Nat) : RoutingCredential :=
  ⟨(card "router").toTerms, List.replicate front (card "a") ++ List.replicate back (card "b"), .roundRobin⟩

def unruled : Ruling := Ruling.evaluate [] purchase user.instruments user 0

theorem eligibleChildren_crowd (front back : Nat) :
    Resolution.eligibleChildren (crowd front back) = List.replicate front (card "a") ++ List.replicate back (card "b") := by
  refine List.filter_eq_self.mpr ?_
  rintro c hc
  rcases List.mem_append.mp hc with hc | hc
  · rw [List.eq_of_mem_replicate hc]
    rfl
  · rw [List.eq_of_mem_replicate hc]
    rfl

theorem length_crowd (front back : Nat) : (Resolution.eligibleChildren (crowd front back)).length = front + back := by
  rw [eligibleChildren_crowd, List.length_append, List.length_replicate, List.length_replicate]

theorem weights_ok : ∃ weights, user.weights.normalize = .ok weights := by
  obtain ⟨weights, hweights, -⟩ := Weights.normalize_ok (w := user.weights) (by intro c; cases c <;> decide)
    (by intro c; cases c <;> decide)
  exact ⟨weights, hweights⟩

theorem usable_limits : engine.limits.Usable := ⟨⟨.int 1, .int 100, .int 500, .int 1000⟩, rfl, rfl⟩

end Sample

namespace Resolution

/-- Two children in turn, of which the draw of this seed takes the second. -/
theorem resolve_meets_of_two :
    Sample.engine.limits.Usable ∧ ∃ weights, Sample.user.weights.normalize = .ok weights ∧
      ∃ resolved, resolve (Sample.crowd 1 1) Sample.purchase Sample.user Sample.unruled.guidance Sample.engine.limits
          (.num (.int 0)) ⟨1, 0⟩ = (.ok resolved, ⟨1, 5⟩) ∧
        Meets (Sample.crowd 1 1) Sample.purchase Sample.user Sample.engine.limits ⟨1, 0⟩ resolved ∧
          resolved.resolution.child.id = "b" := by
  obtain ⟨weights, hweights⟩ := Sample.weights_ok
  refine ⟨Sample.usable_limits, weights, hweights, ?_⟩
  have hid : (resolve (Sample.crowd 1 1) Sample.purchase Sample.user Sample.unruled.guidance Sample.engine.limits
      (.num (.int 0)) ⟨1, 0⟩).1.toOption.map (fun x => x.resolution.child.id) = some "b" := by
    decide +kernel
  rcases resolve_meets Sample.usable_limits hweights (Sample.crowd 1 1) Sample.purchase Sample.unruled 0 ⟨1, 0⟩ with
    ⟨hnone, -⟩ | ⟨-, resolved, hresolve, hmeets⟩
  · cases hnone (Sample.card "a") List.mem_cons_self
  · rw [hresolve] at hid
    exact ⟨resolved, hresolve, hmeets, Option.some.inj hid⟩

/-- Among more children than `2 ^ 21` a turn can go to the child behind that at the exact position. -/
theorem resolve_past_position :
    ∃ resolved, (resolve (Sample.crowd 2097696 89) Sample.purchase Sample.user Sample.unruled.guidance
        Sample.engine.limits (.num (.int 0)) ⟨2677633527, 0⟩).1 = .ok resolved ∧
      ((eligibleChildren (Sample.crowd 2097696 89))[(Generator.next ⟨2677633527, 0⟩).1.toNat *
          (eligibleChildren (Sample.crowd 2097696 89)).length / 2 ^ 32]?.map fun c => c.id) = some "a" ∧
        resolved.resolution.child.id = "b" := by
  -- There are too many children to run it: the position is computed, and the child looked up in the two parts.
  have hword : (Generator.next ⟨2677633527, 0⟩).1.toNat = 4294785079 := by decide +kernel
  have hposition : (Generator.position 2097785 ⟨2677633527, 0⟩).1 = 2097696 := by decide +kernel
  have hlength := Sample.length_crowd 2097696 89
  obtain ⟨weights, hweights⟩ := Sample.weights_ok
  have hsome : eligibleChildren (Sample.crowd 2097696 89) ≠ [] := by
    intro hnil
    rw [hnil] at hlength
    cases hlength
  obtain ⟨resolved, hresolve⟩ := resolve_of_eligible Sample.usable_limits hweights hsome Sample.purchase Sample.unruled
    0 ⟨2677633527, 0⟩
  have hok := congrArg Prod.fst hresolve
  obtain ⟨first, rest, table, hsettled⟩ := exists_settled hok
  have hchild := hsettled.turn rfl
  refine ⟨resolved, hok, ?_, ?_⟩
  · rw [hword, hlength, Sample.eligibleChildren_crowd, List.getElem?_append_left (by rw [List.length_replicate]; norm_num),
      List.getElem?_replicate_of_lt (by norm_num)]
    rfl
  · rw [hlength, hposition, Sample.eligibleChildren_crowd,
      List.getElem?_append_right (by rw [List.length_replicate]), List.length_replicate,
      List.getElem?_replicate_of_lt (by norm_num)] at hchild
    rw [← Option.some.inj hchild]
    rfl

end Resolution

end WalletRouting
