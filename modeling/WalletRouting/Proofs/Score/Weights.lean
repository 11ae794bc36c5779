import WalletRouting.Proofs.Number.Whole
import WalletRouting.Proofs.Schema.Reading
import WalletRouting.Score.Table

/-! # Weights that can be normalised

Weights that are not negative are made to sum to one exactly if all of them are finite: an infinite one has an infinite
total, of which it is no part.
-/
namespace WalletRouting
set_option autoImplicit false

open Schema

namespace Weights

theorem mk_eq_ok {rewards credit cashflow risk : Checked Double} {w : Weights}
    (h : Weights.mk <$> rewards <*> credit <*> cashflow <*> risk = .ok w) :
    rewards = .ok w.rewards ∧ credit = .ok w.credit ∧ cashflow = .ok w.cashflow ∧ risk = .ok w.risk := by
  obtain ⟨_, _, h₃, hrisk, rfl⟩ := Checked.seq_eq_ok h
  obtain ⟨_, _, h₂, hcashflow, rfl⟩ := Checked.seq_eq_ok h₃
  obtain ⟨_, _, h₁, hcredit, rfl⟩ := Checked.seq_eq_ok h₂
  obtain ⟨_, hrewards, rfl⟩ := Checked.map_eq_ok h₁
  exact ⟨hrewards, hcredit, hcashflow, hrisk⟩

theorem nonneg_of_read {v : Value} {w : Weights} (h : read v = .ok w) (c : Criterion) : 0 ≤ w.get c := by
  have hfield {name : String} {m : Keyed Value} {x : Double} (h : optional name 0.25 (doubleFrom 0) m = .ok x) :
      0 ≤ x := by
    rcases optional_eq_ok h with rfl | ⟨v, hv⟩
    · decide
    · exact le_of_doubleFrom hv
  unfold read record at h
  split at h
  · obtain ⟨hrewards, hcredit, hcashflow, hrisk⟩ := mk_eq_ok h
    cases c with
    | rewards => exact hfield hrewards
    | credit => exact hfield hcredit
    | cashflow => exact hfield hcashflow
    | risk => exact hfield hrisk
  · cases h

theorem validate_eq (w : Weights) :
    w.validate =
      Weights.mk <$> (doubleFrom 0 (.float w.rewards)).within (.key "rewards")
        <*> (doubleFrom 0 (.float w.credit)).within (.key "credit")
        <*> (doubleFrom 0 (.float w.cashflow)).within (.key "cashflow")
        <*> (doubleFrom 0 (.float w.risk)).within (.key "risk") := rfl

theorem validate_of_nonneg {w : Weights} (h : ∀ c, 0 ≤ w.get c) : w.validate = .ok w := by
  have hrewards : 0 ≤ w.rewards := h .rewards
  have hcredit : 0 ≤ w.credit := h .credit
  have hcashflow : 0 ≤ w.cashflow := h .cashflow
  have hrisk : 0 ≤ w.risk := h .risk
  rw [validate_eq, doubleFrom_float, doubleFrom_float, doubleFrom_float, doubleFrom_float, if_pos hrewards,
    if_pos hcredit, if_pos hcashflow, if_pos hrisk]
  rfl

theorem nonneg_of_validate {w v : Weights} (h : w.validate = .ok v) (c : Criterion) : 0 ≤ w.get c := by
  have hfield {x y : Double} {s : Step} (h : (doubleFrom 0 (.float x)).within s = .ok y) : 0 ≤ x := by
    have hread := Checked.within_eq_ok h
    rw [doubleFrom_float] at hread
    split at hread
    · assumption
    · cases hread
  rw [validate_eq] at h
  obtain ⟨hrewards, hcredit, hcashflow, hrisk⟩ := mk_eq_ok h
  cases c with
  | rewards => exact hfield hrewards
  | credit => exact hfield hcredit
  | cashflow => exact hfield hcashflow
  | risk => exact hfield hrisk

/-- All weights are between zero and one. -/
def Fractions (w : Weights) : Prop := ∀ c, 0 ≤ w.get c ∧ w.get c ≤ 1

theorem Fractions.finite {w : Weights} (h : w.Fractions) (c : Criterion) : Double.finite (w.get c) = true := by
  obtain ⟨q, hq⟩ := Double.measures_of_le (h c).1 (h c).2 Double.measures_one
  exact hq.finite

theorem balanced_fractions : balanced.Fractions := by
  intro c
  cases c <;> decide

theorem get_le_total {w : Weights} (h : ∀ c, 0 ≤ w.get c) (c : Criterion) : w.get c ≤ w.total := by
  have hrewards : 0 ≤ w.rewards := h .rewards
  have hcredit : 0 ≤ w.credit := h .credit
  have hcashflow : 0 ≤ w.cashflow := h .cashflow
  have hrisk : 0 ≤ w.risk := h .risk
  have hfirst := Double.le_add_right hrewards hcredit
  have htwo := Double.le_trans hrewards hfirst
  have hsecond := Double.le_add_right htwo hcashflow
  have hthree := Double.le_trans htwo hsecond
  have hthird := Double.le_add_right hthree hrisk
  cases c with
  | rewards => exact Double.le_trans hfirst (Double.le_trans hsecond hthird)
  | credit => exact Double.le_trans (Double.le_add_left hrewards hcredit) (Double.le_trans hsecond hthird)
  | cashflow => exact Double.le_trans (Double.le_add_left htwo hcashflow) hthird
  | risk => exact Double.le_add_left hthree hrisk

/-- Each weight as a part of a total. -/
def dividedBy (w : Weights) (total : Double) : Weights :=
  ⟨w.rewards / total, w.credit / total, w.cashflow / total, w.risk / total⟩

theorem get_dividedBy (w : Weights) (total : Double) (c : Criterion) : (w.dividedBy total).get c = w.get c / total := by
  cases c <;> rfl

theorem normalize_eq (w : Weights) :
    w.normalize = if (w.total == 0.0) = true then .ok balanced else (w.dividedBy w.total).validate := rfl

theorem normalize_ok {w : Weights} (h : ∀ c, 0 ≤ w.get c) (hfinite : ∀ c, Double.finite (w.get c) = true) :
    ∃ v, w.normalize = .ok v ∧ v.Fractions := by
  rw [normalize_eq]
  split
  · exact ⟨_, rfl, balanced_fractions⟩
  · next hne =>
    have hpos := Double.pos_of_beq_zero (Double.le_trans (h .rewards) (get_le_total h .rewards)) (eq_false_of_ne_true hne)
    have hparts : (w.dividedBy w.total).Fractions := by
      intro c
      obtain ⟨q, hq⟩ := Double.measures_of_finite (h c) (hfinite c)
      rw [get_dividedBy]
      exact ⟨hq.zero_le_div hpos, hq.part_le_one (get_le_total h c) hpos⟩
    exact ⟨_, validate_of_nonneg fun c => (hparts c).1, hparts⟩

/-- An infinite weight spoils the rest. -/
theorem finite_of_normalize {w v : Weights} (h : ∀ c, 0 ≤ w.get c) (hv : w.normalize = .ok v) (c : Criterion) :
    Double.finite (w.get c) = true := by
  rcases Double.infinite_or_measures (h c) with hinfinite | ⟨q, hq⟩
  · have htotal := hinfinite.of_le (get_le_total h c)
    rw [normalize_eq, htotal.beq_zero, if_neg Bool.false_ne_true] at hv
    have hpart := nonneg_of_validate hv c
    rw [get_dividedBy] at hpart
    exact absurd hpart (hinfinite.not_zero_le_div htotal)
  · exact hq.finite

theorem get_set (w : Weights) (x : Double) (c d : Criterion) : (w.set x c).get d = if d = c then x else w.get d := by
  cases c <;> cases d <;> rfl

end Weights

theorem User.weights_nonneg {v : Value} {u : User} (h : read v = .ok u) (c : Criterion) : 0 ≤ u.weights.get c := by
  unfold read record at h
  split at h
  · obtain ⟨_, _, h₈, -, rfl⟩ := Checked.seq_eq_ok h
    obtain ⟨_, _, h₇, -, rfl⟩ := Checked.seq_eq_ok h₈
    obtain ⟨_, weights, h₆, hweights, rfl⟩ := Checked.seq_eq_ok h₇
    obtain ⟨_, _, h₅, -, rfl⟩ := Checked.seq_eq_ok h₆
    obtain ⟨_, _, h₄, -, rfl⟩ := Checked.seq_eq_ok h₅
    obtain ⟨_, _, h₃, -, rfl⟩ := Checked.seq_eq_ok h₄
    obtain ⟨_, _, h₂, -, rfl⟩ := Checked.seq_eq_ok h₃
    obtain ⟨_, _, h₁, -, rfl⟩ := Checked.seq_eq_ok h₂
    obtain ⟨_, -, rfl⟩ := Checked.map_eq_ok h₁
    rcases optional_eq_ok hweights with rfl | ⟨v, hv⟩
    · exact (Weights.balanced_fractions c).1
    · exact Weights.nonneg_of_read hv c
  · cases h

end WalletRouting
