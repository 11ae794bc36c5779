import WalletRouting.Proofs.Number.Places
import WalletRouting.Proofs.Score.Weights
import WalletRouting.Score.Sensitivity

/-! # What moved weights tell

The rows that are not excluded are led by the first of those that score highest. Every weight is moved in either direction
and it is told who leads then, so that there are eight results or, where there is no choice between rows, none. Weights
that sum to one are where they were when they are moved by nothing, and so is who leads.
-/
namespace WalletRouting
set_option autoImplicit false

theorem Subscores.place_sumOf_congr {f g : Criterion → Double} (h : ∀ c, (f c).place = (g c).place) :
    (sumOf f).place = (sumOf g).place :=
  Double.place_add_congr (Double.place_add_congr (Double.place_add_congr (Double.place_add_congr rfl (h .rewards))
    (h .credit)) (h .cashflow)) (h .risk)

namespace ScoreRow

variable {w w' : Weights} {rows : List ScoreRow}

/-- Every row can be compared with every other, whatever its subscores are. -/
theorem zero_le_rescore (w : Weights) (r : ScoreRow) : 0 ≤ r.rescore w :=
  (Double.clamp_between (by decide : (0 : Double) ≤ 100) _).1

/-- The row is the first of those that score highest under the weights. -/
def Leads (w : Weights) (rows : List ScoreRow) (r : ScoreRow) : Prop :=
  ∃ before after, rows = before ++ r :: after ∧ (∀ other ∈ before, other.rescore w < r.rescore w) ∧
    ∀ other ∈ after, other.rescore w ≤ r.rescore w

theorem leads_singleton (w : Weights) (r : ScoreRow) : Leads w [r] r := ⟨[], [], rfl, by simp, by simp⟩

theorem Leads.concat {best : ScoreRow} (h : Leads w rows best) (r : ScoreRow) :
    Leads w (rows ++ [r]) (if best.rescore w < r.rescore w then r else best) := by
  obtain ⟨before, after, rfl, hbefore, hafter⟩ := h
  split
  · next hlt =>
    refine ⟨before ++ best :: after, [], rfl, ?_, by simp⟩
    intro other hother
    rcases List.mem_append.mp hother with hother | hother
    · exact Double.lt_of_le_of_lt (Double.le_of_lt (hbefore other hother)) hlt
    · rcases List.mem_cons.mp hother with rfl | hother
      · exact hlt
      · exact Double.lt_of_le_of_lt (hafter other hother) hlt
  · next hnot =>
    refine ⟨before, after ++ [r], by simp, hbefore, ?_⟩
    intro other hother
    rcases List.mem_append.mp hother with hother | hother
    · exact hafter other hother
    · obtain rfl := List.mem_singleton.mp hother
      exact Double.le_of_not_lt (zero_le_rescore w best) (zero_le_rescore w other) hnot

theorem leader_concat (w : Weights) (first r : ScoreRow) (rest : List ScoreRow) :
    first.leader w (rest ++ [r]) =
      if (first.leader w rest).2 < r.rescore w then (r, r.rescore w) else first.leader w rest := by
  rw [leader, leader, List.foldl_concat]

theorem leader_leads (w : Weights) (first : ScoreRow) (rest : List ScoreRow) :
    Leads w (first :: rest) (first.leader w rest).1 ∧
      (first.leader w rest).2 = (first.leader w rest).1.rescore w := by
  induction rest using List.reverseRecOn with
  | nil => exact ⟨leads_singleton w first, rfl⟩
  | append_singleton rest r ih =>
    obtain ⟨hleads, hscore⟩ := ih
    have hstep := hleads.concat r
    rw [leader_concat, hscore, ← List.cons_append]
    split
    · next hlt =>
      rw [if_pos hlt] at hstep
      exact ⟨hstep, rfl⟩
    · next hnot =>
      rw [if_neg hnot] at hstep
      exact ⟨hstep, hscore⟩

theorem Leads.congr {r : ScoreRow} (hsame : ∀ r : ScoreRow, (r.rescore w').place = (r.rescore w).place)
    (h : Leads w' rows r) : Leads w rows r := by
  obtain ⟨before, after, hrows, hbefore, hafter⟩ := h
  exact ⟨before, after, hrows,
    fun other hother => (Double.lt_congr (hsame other) (hsame r)).mp (hbefore other hother),
    fun other hother => (Double.le_congr (hsame other) (hsame r)).mp (hafter other hother)⟩

theorem Leads.unique {a b : ScoreRow} (ha : Leads w rows a) (hb : Leads w rows b) : a = b := by
  -- Whichever stood before the other would score less than it and no less.
  have hfirst {before after before' after' : List ScoreRow} {a b : ScoreRow}
      (hafter : ∀ other ∈ after, other.rescore w ≤ a.rescore w)
      (hbefore' : ∀ other ∈ before', other.rescore w < b.rescore w) {more : List ScoreRow}
      (hbefore : before' = before ++ more) (hrest : a :: after = more ++ b :: after') : a = b := by
    cases more with
    | nil => exact (List.cons.inj hrest).1
    | cons c more =>
      obtain ⟨rfl, rfl⟩ := List.cons.inj hrest
      have hlt := hbefore' a (hbefore ▸ by simp)
      exact absurd hlt (Double.not_lt_of_le (hafter b (by simp)))
  obtain ⟨before, after, hrows, hbefore, hafter⟩ := ha
  obtain ⟨before', after', hrows', hbefore', hafter'⟩ := hb
  rcases List.append_eq_append_iff.mp (hrows.symm.trans hrows') with ⟨more, hmore, hrest⟩ | ⟨more, hmore, hrest⟩
  · exact hfirst hafter hbefore' hmore hrest
  · exact (hfirst hafter' hbefore hmore hrest).symm

theorem place_rescore_congr (h : ∀ c, (w'.get c).place = (w.get c).place) (r : ScoreRow) :
    (r.rescore w').place = (r.rescore w).place := by
  have hbase := Subscores.place_sumOf_congr fun c => Double.place_mul_congr (r.subscores.get c).normalized (h c)
  exact Double.place_clamp_congr 0 100 (Double.place_sub_congr (Double.place_add_congr hbase rfl) _)

end ScoreRow

namespace Sensitivity

open ScoreRow (Leads)

variable {w v : Weights} {x : Double}

/-- The weights where one of them has been moved, within `[0, 1]`. -/
def raised (w : Weights) (perturbation : Double) (c : Criterion) (d : Direction) (c' : Criterion) : Double :=
  if c' = c then Double.clamp 0 1 (w.get c + if d = .increase then perturbation else -perturbation) else w.get c'

/-- The weights after a move, as parts of their total unless that is nothing. -/
def Moved (w : Weights) (perturbation : Double) (c : Criterion) (d : Direction) (w' : Weights) : Prop :=
  let weight := raised w perturbation c d
  ∀ c', w'.get c' = if 0 < Subscores.sumOf weight then weight c' / Subscores.sumOf weight else weight c'

theorem moved_ok (h : ∀ c, 0 ≤ w.get c) (hfinite : ∀ c, Double.finite (w.get c) = true)
    (perturbation : Double) (c : Criterion) (d : Direction) :
    ∃ v, moved w perturbation c d = .ok v ∧ Moved w perturbation c d v := by
  unfold moved Moved
  dsimp only
  have hraised :
      (w.set (Double.clamp 0 1 (w.get c + if d = .increase then perturbation else -perturbation)) c).get =
        raised w perturbation c d := funext (Weights.get_set w _ c)
  have hmeasures (c' : Criterion) : ∃ q, Double.Measures (raised w perturbation c d c') q := by
    unfold raised
    split
    · obtain ⟨hlow, hhigh⟩ := Double.clamp_bounds (w.get c + if d = .increase then perturbation else -perturbation)
      exact Double.measures_of_le hlow hhigh Double.measures_one
    · exact Double.measures_of_finite (h c') (hfinite c')
  rw [← hraised] at hmeasures ⊢
  generalize w.set _ c = w' at hmeasures
  split
  · next hpos =>
    have hparts : ∀ c', 0 ≤ (w'.dividedBy (Subscores.sumOf w'.get)).get c' := by
      intro c'
      obtain ⟨q, hq⟩ := hmeasures c'
      rw [Weights.get_dividedBy]
      exact hq.zero_le_div hpos
    exact ⟨_, Weights.validate_of_nonneg hparts, Weights.get_dividedBy w' _⟩
  · refine ⟨w', Weights.validate_of_nonneg fun c' => ?_, fun _ => rfl⟩
    obtain ⟨q, hq⟩ := hmeasures c'
    exact hq.zero_le

theorem Moved.still {c : Criterion} {d : Direction} (h : Moved w x c d v) (hw : w.Fractions)
    (hsum : (Subscores.sumOf w.get == 1) = true) (hzero : (x == 0) = true) (c' : Criterion) :
    (v.get c').place = (w.get c').place := by
  have hmeasures (c : Criterion) : ∃ q, Double.Measures (w.get c) q :=
    Double.measures_of_finite (hw c).1 (hw.finite c)
  have hdelta : (if d = .increase then x else -x).place = (0 : Double).place := by
    split
    · exact Double.place_of_beq hzero
    · exact Double.place_neg_zero (Double.place_of_beq hzero)
  have hplace (c' : Criterion) : (raised w x c d c').place = (w.get c').place := by
    unfold raised
    split
    · next heq =>
      obtain ⟨q, hq⟩ := hmeasures c
      rw [heq, Double.place_clamp_congr 0 1 (hq.place_add_zero hdelta), Double.place_clamp (hw c).1 (hw c).2]
    · rfl
  have htotal : (Subscores.sumOf (raised w x c d)).place = (1 : Double).place :=
    (Subscores.place_sumOf_congr hplace).trans (Double.place_of_beq hsum)
  have hpos : 0 < Subscores.sumOf (raised w x c d) := (Double.lt_congr rfl htotal).mpr (by decide)
  obtain ⟨q, hq⟩ := hmeasures c'
  rw [h, if_pos hpos, (hq.of_place (hplace c')).place_div_one htotal, hplace]

/-- What is told of a move: who leads the rows under the weights after it, and whether that is another than before. -/
structure Tells (rows : List ScoreRow) (w : Weights) (x : Double) (before : ScoreRow) (move : Criterion × Direction)
    (n : Nudge) : Prop where
  labels : n.criterion = move.1.name ∧ n.direction = move.2 ∧ n.perturbation = x
  winnerBefore : n.winnerBefore = before.credentialId
  newWinner : ∃ v winner, Moved w x move.1 move.2 v ∧ Leads v rows winner ∧ n.newWinner = winner.credentialId ∧
    n.newScore = (winner.rescore v).roundPlaces 2
  changed : n.changed = true ↔ n.newWinner ≠ n.winnerBefore

theorem nudge_tells (h : ∀ c, 0 ≤ w.get c) (hfinite : ∀ c, Double.finite (w.get c) = true) (first : ScoreRow)
    (rest : List ScoreRow) (move : Criterion × Direction) :
    ∃ n, nudge w x first rest move = .ok n ∧ Tells (first :: rest) w x (first.leader w rest).1 move n := by
  obtain ⟨v, hv, hmoved⟩ := moved_ok h hfinite x move.1 move.2
  obtain ⟨hleads, hscore⟩ := ScoreRow.leader_leads v first rest
  refine ⟨_, by rw [nudge, hv]; rfl, ⟨rfl, rfl, rfl⟩, rfl, ⟨v, _, hmoved, hleads, rfl, ?_⟩, decide_eq_true_iff⟩
  rw [← hscore]

theorem Tells.still {rows : List ScoreRow} {before : ScoreRow} {move : Criterion × Direction} {n : Nudge}
    (h : Tells rows w x before move n) (hbefore : Leads w rows before) (hw : w.Fractions)
    (hsum : (Subscores.sumOf w.get == 1) = true) (hzero : (x == 0) = true) : n.changed = false := by
  obtain ⟨v, winner, hmoved, hleads, hwinner, -⟩ := h.newWinner
  have hsame : Leads w rows winner := hleads.congr (ScoreRow.place_rescore_congr (hmoved.still hw hsum hzero))
  have hid : n.newWinner = n.winnerBefore := by rw [hwinner, h.winnerBefore, hsame.unique hbefore]
  exact Bool.eq_false_iff.mpr fun hchanged => h.changed.mp hchanged hid

/-- The rows between which there is a choice. -/
def contenders (rows : List ScoreRow) : List ScoreRow := rows.filter fun r => !r.excluded

theorem ofRows_of_few {rows : List ScoreRow} (hfew : (contenders rows).length < 2) (w : Weights) (p : Number) :
    ofRows rows w p = .ok [] := by
  unfold contenders at hfew
  unfold ofRows
  split
  · next hrows =>
    rw [hrows] at hfew
    simp at hfew
  · rfl

theorem ofRows_tells {rows : List ScoreRow} (h : ∀ c, 0 ≤ w.get c) (hfinite : ∀ c, Double.finite (w.get c) = true)
    {p : Number} (hx : p.double = .ok x) (hmany : 2 ≤ (contenders rows).length) :
    ∃ before nudges, ofRows rows w p = .ok nudges ∧ Leads w (contenders rows) before ∧
      List.Forall₂ (Tells (contenders rows) w x before) moves nudges := by
  obtain ⟨first, second, rest, hrows⟩ : ∃ first second rest, contenders rows = first :: second :: rest := by
    rcases hrows : contenders rows with _ | ⟨first, _ | ⟨second, rest⟩⟩
    · simp [hrows] at hmany
    · simp [hrows] at hmany
    · exact ⟨first, second, rest, rfl⟩
  obtain ⟨nudges, hnudges, htells⟩ := Schema.Checked.each_forall₂ (l := moves) fun move _ =>
    nudge_tells (x := x) h hfinite first (second :: rest) move
  refine ⟨_, nudges, ?_, hrows ▸ (ScoreRow.leader_leads w first (second :: rest)).1, hrows ▸ htells⟩
  unfold contenders at hrows
  rw [ofRows, hrows]
  dsimp only
  rw [hx]
  dsimp only
  rw [hnudges]

theorem ofGiven_ok (h : w.Fractions) (rows : List ScoreRow) (x : Double) :
    ∃ nudges, ofGiven rows w (.float x) = .ok nudges := by
  have hgiven : ofGiven rows w (.float x) = ofRows rows w (.float x) := rfl
  rw [hgiven]
  rcases Nat.lt_or_ge (contenders rows).length 2 with hfew | hmany
  · exact ⟨[], ofRows_of_few hfew w (.float x)⟩
  · have hx : (Number.float x).double = .ok x := rfl
    obtain ⟨_, nudges, hnudges, -, -⟩ := ofRows_tells (fun c => (h c).1) h.finite hx hmany
    exact ⟨nudges, hnudges⟩

/-- All that the results are for some rows, weights and amount by which the weights are moved. -/
structure Complete (rows : List ScoreRow) (w : Weights) (p : Number) (x : Double) : Prop where
  nothing : (contenders rows).length < 2 → ofRows rows w p = .ok []
  results : 2 ≤ (contenders rows).length → ∃ before nudges, ofRows rows w p = .ok nudges ∧
    Leads w (contenders rows) before ∧
      List.Forall₂ (Tells (contenders rows) w x before)
        [(.rewards, .increase), (.rewards, .decrease), (.credit, .increase), (.credit, .decrease),
          (.cashflow, .increase), (.cashflow, .decrease), (.risk, .increase), (.risk, .decrease)] nudges
  /-- Rows that are excluded may as well not be there. -/
  excluded : ∀ rows', contenders rows' = contenders rows → ofRows rows' w p = ofRows rows w p
  still : (∀ c, w.get c ≤ 1) → (Subscores.sumOf w.get == 1) = true → (x == 0) = true →
    ∀ nudges, ofRows rows w p = .ok nudges → ∀ n ∈ nudges, n.changed = false

/-- Whatever the rows are, and however far the weights are moved. -/
theorem ofRows_complete (rows : List ScoreRow) (h : ∀ c, 0 ≤ w.get c) (hfinite : ∀ c, Double.finite (w.get c) = true)
    {p : Number} (hx : p.double = .ok x) : Complete rows w p x := by
  refine ⟨fun hfew => ofRows_of_few hfew w p, fun hmany => ofRows_tells h hfinite hx hmany, ?_, ?_⟩
  · intro rows' hsame
    unfold contenders at hsame
    rw [ofRows, hsame, ofRows]
  · intro hle hsum hzero nudges hnudges n hn
    rcases Nat.lt_or_ge (contenders rows).length 2 with hfew | hmany
    · cases (ofRows_of_few hfew w p).symm.trans hnudges
      cases hn
    · obtain ⟨before, nudges', hnudges', hbefore, htells⟩ := ofRows_tells h hfinite hx hmany
      obtain rfl : nudges = nudges' := Except.ok.inj (hnudges.symm.trans hnudges')
      obtain ⟨i, hi, rfl⟩ := List.getElem_of_mem hn
      have htold := (List.forall₂_iff_get.mp htells).2 i (htells.length_eq ▸ hi) hi
      exact htold.still hbefore (fun c => ⟨h c, hle c⟩) hsum hzero

/-- A row of two subscores; the other two are nothing. -/
def sampleRow (id : String) (rewards credit : Double) (excluded : Bool) : ScoreRow where
  credentialId := id
  credentialName := id
  subscores := ⟨{ normalized := rewards }, { normalized := credit }, {}, {}⟩
  bonuses := []
  penalties := []
  totalBonuses := 0
  totalPenalties := 0
  base := 0
  final := 0
  ranking := 0
  excluded := excluded
  exclusionReason := none
  exclusionStage := none

/-- The weights need to be moved for `b` to lead: what it falls short of `a` in rewards it has in credit. -/
theorem ofRows_complete_of_tie :
    let rows := [sampleRow "c" 100 100 true, sampleRow "a" 50 40 false, sampleRow "b" 40 50 false]
    (∀ c, 0 ≤ Weights.balanced.get c) ∧ (∀ c, Double.finite (Weights.balanced.get c) = true) ∧
      (∃ nudges, ofRows rows Weights.balanced (.float 0.1) = .ok nudges ∧
        (nudges.map fun n => (n.winnerBefore, n.newWinner)) =
          [("a", "a"), ("a", "b"), ("a", "b"), ("a", "a"), ("a", "a"), ("a", "a"), ("a", "a"), ("a", "a")]) ∧
        ∃ nudges, ofRows rows Weights.balanced (.float 0) = .ok nudges ∧ nudges.length = 8 ∧
          ∀ n ∈ nudges, n.changed = false := by
  intro rows
  have hnonneg (c : Criterion) : 0 ≤ Weights.balanced.get c := (Weights.balanced_fractions c).1
  have hfinite (c : Criterion) : Double.finite (Weights.balanced.get c) = true := Weights.balanced_fractions.finite c
  have hmoved : Complete rows Weights.balanced (.float 0.1) 0.1 := ofRows_complete rows hnonneg hfinite rfl
  have hstill : Complete rows Weights.balanced (.float 0) 0 := ofRows_complete rows hnonneg hfinite rfl
  obtain ⟨_, nudges, hnudges, -, -⟩ := hmoved.results (by decide)
  obtain ⟨_, nudges', hnudges', -, htells⟩ := hstill.results (by decide)
  refine ⟨hnonneg, hfinite, ⟨nudges, hnudges, ?_⟩, nudges', hnudges', htells.length_eq.symm,
    hstill.still (fun c => (Weights.balanced_fractions c).2) (by decide +kernel) (by decide +kernel) nudges' hnudges'⟩
  have hwinners : (ofRows rows Weights.balanced (.float 0.1)).toOption.map
      (List.map fun n => (n.winnerBefore, n.newWinner)) = some
        [("a", "a"), ("a", "b"), ("a", "b"), ("a", "a"), ("a", "a"), ("a", "a"), ("a", "a"), ("a", "a")] := by
    decide +kernel
  rw [hnudges] at hwinners
  exact Option.some.inj hwinners

end Sensitivity

end WalletRouting
