import WalletRouting.Proofs.Number.Signed
import WalletRouting.Proofs.Score.Placing

/-! # The scale of scores

What an instrument, a purchase and a user bring may be anything, infinite or no number. A subscore and a score are brought
between their bounds at the end, and what is no number becomes the upper one. So every score can be compared with every
other.
-/
namespace WalletRouting
set_option autoImplicit false

namespace Double

/-- A double that stands on the scale. -/
structure OnScale (x : Double) : Prop where
  low : 0 ≤ x
  high : x ≤ 100
  number : x.isNaN = false

/-- Whether two doubles lie in this order. -/
def lies (o : Ordering) (x y : Double) : Bool :=
  match o with
  | .lt => x < y
  | .eq => x == y
  | .gt => y < x

theorem onScale_of_bounds {x : Double} (h : 0 ≤ x ∧ x ≤ 100) : OnScale x := ⟨h.1, h.2, isNaN_of_le h.1⟩

theorem lies_iff {x y : Double} {p q : Int × Int × Int} (hx : place x = some p) (hy : place y = some q)
    (o : Ordering) : lies o x y = true ↔ x.toModel.unpack.compare y.toModel.unpack = some o := by
  have hlies {a b : Double} {r r' : Int × Int × Int} (ha : place a = some r) (hb : place b = some r') :
      a < b ↔ Precedes r r' := by
    simp [lt_iff, ha, hb]
  obtain ⟨o', ho, hlt, hgt⟩ := compare_spec hx hy
  rw [ho, Option.some_inj]
  cases o with
  | lt => rw [lies, decide_eq_true_iff, hlies hx hy, hlt]
  | gt => rw [lies, decide_eq_true_iff, hlies hy hx, hgt]
  | eq =>
    have hmodel : (x == y) = (x.toModel.unpack.compare y.toModel.unpack == some .eq) := rfl
    rw [lies, hmodel, ho]
    simp

theorem OnScale.existsUnique_lies {x y : Double} (hx : OnScale x) (hy : OnScale y) :
    ∃! o, lies o x y = true := by
  obtain ⟨-, p, -, hp, -⟩ := le_iff.mp hx.low
  obtain ⟨-, q, -, hq, -⟩ := le_iff.mp hy.low
  obtain ⟨o, ho, -, -⟩ := compare_spec hp hq
  refine ⟨o, (lies_iff hp hq o).mpr ho, fun o' h => ?_⟩
  exact Option.some.inj (((lies_iff hp hq o').mp h).symm.trans ho)

theorem roundPlaces_clamp_mono {x y : Double} (h : clamp 0 100 x ≤ clamp 0 100 y) :
    (clamp 0 100 x).roundPlaces 2 ≤ (clamp 0 100 y).roundPlaces 2 := by
  obtain ⟨p, hp, -⟩ := measures_clamp x
  obtain ⟨q, hq, -⟩ := measures_clamp y
  exact roundPlaces_mono hp hq h (by decide)

end Double

open Double (OnScale)

namespace Subscore

theorem onScale_of (raw : Double) (factors : List String) : OnScale (of raw factors).normalized :=
  Double.onScale_of_bounds (Double.roundPlaces_clamp_bounds raw)

theorem onScale_rewards (i : Terms) (t : Transaction) : OnScale (rewards i t).normalized := onScale_of _ _

theorem onScale_credit (i : Instrument) (t : Transaction) : OnScale (credit i t).normalized := by
  unfold credit
  split <;> exact onScale_of _ _

theorem onScale_cashflow (i : Instrument) (t : Transaction) (u : User) : OnScale (cashflow i t u).normalized := by
  unfold cashflow
  cases i.cardKind? with
  | none => exact onScale_of _ _
  | some kind =>
    cases kind with
    | debit | prepaid => exact onScale_of _ _
    | credit =>
      dsimp only
      split <;> exact onScale_of _ _

theorem onScale_risk (a : Option RiskAssessment) : OnScale (risk a).normalized := by
  cases a <;> exact onScale_of _ _

end Subscore

namespace ScoreRow

/-- A row whose scores stand on the scale; a reader accepts its score, which is the only number with bounds. -/
structure Scaled (r : ScoreRow) : Prop where
  final : Double.OnScale r.final
  accepted : Schema.doubleWithin 0 100 (.float r.final) = .ok r.final
  subscores : ∀ c, Double.OnScale (r.subscores.get c).normalized

theorem scaled_of_scores {r : ScoreRow} (hfinal : Double.OnScale r.final)
    (hsubscores : ∀ c, Double.OnScale (r.subscores.get c).normalized) : r.Scaled := by
  refine ⟨hfinal, ?_, hsubscores⟩
  change (if r.final ≤ 100 then if 0 ≤ r.final then _ else _ else _) = _
  rw [if_pos hfinal.high, if_pos hfinal.low]

end ScoreRow

namespace ScoreTable

theorem row_scaled (weights : Weights) (t : Transaction) (u : User) (s : Guidance)
    (assessments : Keyed RiskAssessment) (forced : Option String) (i : Instrument) :
    (row weights t u s assessments forced i).Scaled := by
  unfold row
  cases gate? s assessments forced i with
  | some g =>
    have hzero : OnScale 0 := ⟨by decide, by decide, by decide⟩
    exact ScoreRow.scaled_of_scores hzero fun c => by cases c <;> exact hzero
  | none =>
    refine ScoreRow.scaled_of_scores (Double.onScale_of_bounds (final_openRow_bounds weights t u s assessments i)) ?_
    intro c
    cases c with
    | rewards => exact Subscore.onScale_rewards i.terms t
    | credit => exact Subscore.onScale_credit i t
    | cashflow => exact Subscore.onScale_cashflow i t u
    | risk => exact Subscore.onScale_risk (assessments.get? i.id)

/-- A table on which every row stands on the scale, compares with every other, and stands by its score. -/
structure Scaled (table : ScoreTable) : Prop where
  rows : ∀ r ∈ table.rows, r.Scaled
  comparable : ∀ a ∈ table.rows, ∀ b ∈ table.rows, ∃! o, Double.lies o a.final b.final = true
  descending : (table.rows.filter fun r => !r.excluded).Pairwise fun a b => b.final ≤ a.final

theorem scaled_of_ofInstruments {instruments : List Instrument} {t : Transaction} {u : User} {s : Guidance}
    {assessments : Keyed RiskAssessment} {forced : Option String} {table : ScoreTable}
    (h : ofInstruments instruments t u s assessments forced = .ok table) : table.Scaled := by
  have hrows : ∀ r ∈ table.rows, r.Scaled := by
    obtain ⟨weights, -, rfl⟩ := ofInstruments_ok h
    intro r hr
    obtain ⟨r', hr', k, rfl⟩ := mem_of_mem_numberFrom hr
    obtain ⟨i, -, rfl⟩ := List.mem_map.mp (mem_ordered.mp hr')
    have hrow := row_scaled weights t u s assessments forced i
    exact ⟨hrow.final, hrow.accepted, hrow.subscores⟩
  refine ⟨hrows, fun a ha b hb => (hrows a ha).final.existsUnique_lies (hrows b hb).final, ?_⟩
  refine ((ofInstruments_ranks h).descending.filter fun r => !r.excluded).imp_of_mem ?_
  intro a b ha hb hyields
  obtain ⟨hmem, hopen⟩ := List.mem_filter.mp hb
  exact Double.le_of_not_lt (hrows a (List.mem_of_mem_filter ha)).final.low (hrows b hmem).final.low
    (hyields (by simpa using hopen))

end ScoreTable

end WalletRouting
