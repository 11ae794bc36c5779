import Mathlib.Data.Rat.Cast.Order
import WalletRouting.Policy.Operator
import WalletRouting.Proofs.Number.Exact

/-! # Comparing a reading with what is written

Two numbers compare as their exact values do, however large an integer is and whichever of the two is a double. So of
greater, equal and less exactly one holds, and each goes over to a third number. Whatever else is read is equal to what is
written or not, and among it or not.
-/
namespace WalletRouting
set_option autoImplicit false

namespace Operator

/-- Whether a number compares with a number as the operator asks. -/
def relates (op : Operator) (a b : Number) : Bool := op.holds (.value (.num a)) (.num b)

/-- The operators hold of two numbers as the order of their values has it. -/
structure FollowsOrder (a b : Number) (v w : Extended) : Prop where
  gt : Operator.gt.relates a b = true ↔ w < v
  eq : Operator.eq.relates a b = true ↔ v = w
  lt : Operator.lt.relates a b = true ↔ v < w
  one : ∃! op : Operator, op ∈ [Operator.gt, .eq, .lt] ∧ op.relates a b = true
  gte : Operator.gte.relates a b = true ↔ Operator.gt.relates a b = true ∨ Operator.eq.relates a b = true
  lte : Operator.lte.relates a b = true ↔ Operator.lt.relates a b = true ∨ Operator.eq.relates a b = true

variable {a b c : Number} {v w : Extended}

theorem equals_num (a b : Number) : (Value.num a).equals (.num b) = a.same b := by
  simp [Value.equals, Value.isBool, Value.agrees]

theorem relates_eq_iff (a b : Number) : Operator.eq.relates a b = true ↔ a.compare? b = some .eq := by
  change (Value.num a).equals (.num b) = true ↔ _
  rw [equals_num, Number.same, beq_iff_eq]

theorem relates_iff_admits {op : Operator} (hop : op ∈ [Operator.gt, .lt, .gte, .lte]) (a b : Number) :
    op.relates a b = true ↔ ∃ o, a.compare? b = some o ∧ op.admits o = true := by
  have horders : op.relates a b = op.orders (some a) (some b) := by
    fin_cases hop <;> rfl
  rw [horders, orders]
  cases a.compare? b with
  | none => simp
  | some o => simp

theorem relates_of_not_compare (h : a.compare? b = none) (op : Operator) :
    op.relates a b = true ↔ op = .neq ∨ op = .notIn := by
  have hsame : (Value.num a).equals (.num b) = false := by
    rw [equals_num, Number.same, h]
    rfl
  cases op with
  | eq => simp [relates, holds, compares, Reading.equals, hsame]
  | neq => simp [relates, holds, compares, Reading.equals, hsame]
  | isIn | notIn | contains => simp [relates, holds, compares, amongItems]
  | gt | lt | gte | lte => simp [relates, holds, compares, orders, Reading.number?, h]

theorem relates_of_values (ha : a.exactValue = some v) (hb : b.exactValue = some w) {op : Operator}
    (hop : op ∈ [Operator.gt, .lt, .gte, .lte]) : op.relates a b = true ↔ op.admits (compare v w) = true := by
  rw [relates_iff_admits hop, Number.compare?_of_exactValue ha hb]
  simp

theorem gt_iff (ha : a.exactValue = some v) (hb : b.exactValue = some w) :
    Operator.gt.relates a b = true ↔ w < v := by
  rw [relates_of_values ha hb (by decide), ← compare_gt_iff_gt]
  cases compare v w <;> decide

theorem eq_iff (ha : a.exactValue = some v) (hb : b.exactValue = some w) :
    Operator.eq.relates a b = true ↔ v = w := by
  rw [relates_eq_iff, Number.compare?_of_exactValue ha hb, Option.some_inj, compare_eq_iff_eq]

theorem lt_iff (ha : a.exactValue = some v) (hb : b.exactValue = some w) :
    Operator.lt.relates a b = true ↔ v < w := by
  rw [relates_of_values ha hb (by decide), ← compare_lt_iff_lt]
  cases compare v w <;> decide

theorem gte_iff (ha : a.exactValue = some v) (hb : b.exactValue = some w) :
    Operator.gte.relates a b = true ↔ w ≤ v := by
  rw [relates_of_values ha hb (by decide), ← not_lt, ← compare_lt_iff_lt]
  cases compare v w <;> decide

theorem lte_iff (ha : a.exactValue = some v) (hb : b.exactValue = some w) :
    Operator.lte.relates a b = true ↔ v ≤ w := by
  rw [relates_of_values ha hb (by decide), ← not_lt, ← compare_gt_iff_gt]
  cases compare v w <;> decide

theorem existsUnique_relates (ha : a.exactValue = some v) (hb : b.exactValue = some w) :
    ∃! op : Operator, op ∈ [Operator.gt, .eq, .lt] ∧ op.relates a b = true := by
  have hgt := gt_iff ha hb
  have heq := eq_iff ha hb
  have hlt := lt_iff ha hb
  rcases lt_trichotomy v w with h | h | h
  · refine ⟨.lt, ⟨by decide, hlt.mpr h⟩, fun op ⟨hop, hholds⟩ => ?_⟩
    fin_cases hop
    · exact absurd (hgt.mp hholds) h.not_gt
    · exact absurd (heq.mp hholds) h.ne
    · rfl
  · refine ⟨.eq, ⟨by decide, heq.mpr h⟩, fun op ⟨hop, hholds⟩ => ?_⟩
    fin_cases hop
    · exact absurd (hgt.mp hholds) h.not_gt
    · rfl
    · exact absurd (hlt.mp hholds) h.not_lt
  · refine ⟨.gt, ⟨by decide, hgt.mpr h⟩, fun op ⟨hop, hholds⟩ => ?_⟩
    fin_cases hop
    · rfl
    · exact absurd (heq.mp hholds) h.ne'
    · exact absurd (hlt.mp hholds) h.not_gt

theorem followsOrder (ha : a.exactValue = some v) (hb : b.exactValue = some w) : FollowsOrder a b v w where
  gt := gt_iff ha hb
  eq := eq_iff ha hb
  lt := lt_iff ha hb
  one := existsUnique_relates ha hb
  gte := by rw [gte_iff ha hb, gt_iff ha hb, eq_iff ha hb, le_iff_lt_or_eq, eq_comm]
  lte := by rw [lte_iff ha hb, lt_iff ha hb, eq_iff ha hb, le_iff_lt_or_eq]

theorem exactValue_of_relates {op : Operator} (hop : op ∈ [Operator.gt, .eq, .lt, .gte, .lte])
    (h : op.relates a b = true) : ∃ v w, a.exactValue = some v ∧ b.exactValue = some w := by
  cases hcompare : a.compare? b with
  | none =>
    rcases (relates_of_not_compare hcompare op).mp h with rfl | rfl
    · exact absurd hop (by decide)
    · exact absurd hop (by decide)
  | some o =>
    obtain ⟨v, w, ha, hb, -⟩ := Number.exactValue_of_compare? hcompare
    exact ⟨v, w, ha, hb⟩

theorem relates_trans {op : Operator} (hop : op ∈ [Operator.gt, .eq, .lt, .gte, .lte]) (h : op.relates a b = true)
    (h' : op.relates b c = true) : op.relates a c = true := by
  obtain ⟨u, v, ha, hb⟩ := exactValue_of_relates hop h
  obtain ⟨-, w, -, hc⟩ := exactValue_of_relates hop h'
  fin_cases hop
  · exact (gt_iff ha hc).mpr (((gt_iff hb hc).mp h').trans ((gt_iff ha hb).mp h))
  · exact (eq_iff ha hc).mpr (((eq_iff ha hb).mp h).trans ((eq_iff hb hc).mp h'))
  · exact (lt_iff ha hc).mpr (((lt_iff ha hb).mp h).trans ((lt_iff hb hc).mp h'))
  · exact (gte_iff ha hc).mpr (((gte_iff hb hc).mp h').trans ((gte_iff ha hb).mp h))
  · exact (lte_iff ha hc).mpr (((lte_iff ha hb).mp h).trans ((lte_iff hb hc).mp h'))

/-! ## Readings of any kind -/

variable {r : Reading}

theorem holds_of_ne_missing (hr : r ≠ .missing) (op : Operator) (bound : Value) :
    op.holds r bound = op.compares r bound := by
  cases r with
  | missing => exact absurd rfl hr
  | bonus b => rfl
  | value v => rfl

theorem neq_holds (hr : r ≠ .missing) (bound : Value) : Operator.neq.holds r bound = !(Operator.eq.holds r bound) := by
  rw [holds_of_ne_missing hr, holds_of_ne_missing hr]
  rfl

theorem notIn_holds (hr : r ≠ .missing) (bound : Value) :
    Operator.notIn.holds r bound = !(Operator.isIn.holds r bound) := by
  rw [holds_of_ne_missing hr, holds_of_ne_missing hr]
  rfl

theorem isIn_holds_iff (hr : r ≠ .missing) (items : List Value) :
    Operator.isIn.holds r (.list items) = true ↔ ∃ item ∈ items, Operator.eq.holds r item = true := by
  simp only [holds_of_ne_missing hr]
  exact List.any_eq_true

theorem existsUnique_of_not {op op' : Operator} {r : Reading} {bound : Value}
    (h : op'.holds r bound = !(op.holds r bound)) : ∃! p : Operator, p ∈ [op, op'] ∧ p.holds r bound = true := by
  cases hop : op.holds r bound with
  | true =>
    rw [hop] at h
    refine ⟨op, ⟨by simp, hop⟩, fun p ⟨hp, hholds⟩ => ?_⟩
    rcases List.mem_pair.mp hp with rfl | rfl
    · rfl
    · rw [h] at hholds
      cases hholds
  | false =>
    rw [hop] at h
    refine ⟨op', ⟨by simp, h⟩, fun p ⟨hp, hholds⟩ => ?_⟩
    rcases List.mem_pair.mp hp with rfl | rfl
    · rw [hop] at hholds
      cases hholds
    · rfl

/-- Comparison is one exact order of numbers, in which what is not a number differs from everything, and equality and
membership are decided for whatever is read. -/
theorem compares_coherently :
    (∀ a b : Number, a.isNaN = false → b.isNaN = false →
      ∃ v w, a.exactValue = some v ∧ b.exactValue = some w ∧ FollowsOrder a b v w) ∧
    (∀ a b c : Number, ∀ op ∈ [Operator.gt, .eq, .lt, .gte, .lte],
      op.relates a b = true → op.relates b c = true → op.relates a c = true) ∧
    (∀ a b : Number, a.isNaN = true ∨ b.isNaN = true →
      ∀ op : Operator, op.relates a b = true ↔ op = .neq ∨ op = .notIn) ∧
    ∀ r : Reading, r ≠ .missing → ∀ bound : Value,
      (∃! op : Operator, op ∈ [Operator.eq, .neq] ∧ op.holds r bound = true) ∧
      (∃! op : Operator, op ∈ [Operator.isIn, .notIn] ∧ op.holds r bound = true) ∧
      ∀ items : List Value, Operator.isIn.holds r (.list items) = true ↔
        ∃ item ∈ items, Operator.eq.holds r item = true := by
  refine ⟨?_, fun a b c op hop h h' => relates_trans hop h h', ?_, ?_⟩
  · intro a b ha hb
    obtain ⟨v, hv⟩ := Number.exists_exactValue ha
    obtain ⟨w, hw⟩ := Number.exists_exactValue hb
    exact ⟨v, w, hv, hw, followsOrder hv hw⟩
  · intro a b hnan op
    apply relates_of_not_compare
    apply Number.compare?_of_exactValue_eq_none
    rwa [Number.exactValue_eq_none_iff, Number.exactValue_eq_none_iff]
  · intro r hr bound
    exact ⟨existsUnique_of_not (neq_holds hr bound), existsUnique_of_not (notIn_holds hr bound), isIn_holds_iff hr⟩

/-- Where doubles are two apart an integer between them keeps its place, and so it does below the infinite. -/
theorem compares_coherently_beyond_doubles :
    (∃ v w, (Number.int (2 ^ 53 + 1)).exactValue = some v ∧ (Number.float 9007199254740992.0).exactValue = some w ∧
      FollowsOrder (.int (2 ^ 53 + 1)) (.float 9007199254740992.0) v w) ∧
    Operator.lt.relates (.float 9007199254740992.0) (.float (1 / 0)) = true ∧
    Operator.neq.relates (.float (0 / 0)) (.float (0 / 0)) = true ∧
    (Operator.isIn.holds (.value (.bool true)) (.list [.int 1, .bool true]) = true ↔
      ∃ item ∈ [Value.int 1, .bool true], Operator.eq.holds (.value (.bool true)) item = true) :=
  ⟨compares_coherently.1 _ _ (by decide) (by decide),
    compares_coherently.2.1 _ (.int (2 ^ 53 + 1)) _ .lt (by decide) (by decide) (by decide),
    (compares_coherently.2.2.1 _ _ (Or.inl (by decide)) .neq).mpr (Or.inl rfl),
    (compares_coherently.2.2.2 (.value (.bool true)) nofun .null).2.2 _⟩

end Operator

end WalletRouting
