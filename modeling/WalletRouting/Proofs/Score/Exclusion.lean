import WalletRouting.Proofs.Ruling.Forcing
import WalletRouting.Proofs.Run.Selection

/-! # Exclusions as a table shows them

A ruling lists whom it excludes, and a table shows who was left out at the stage of the rules. The table looks at the
reason alone: it shows all who are listed with one, but not who is listed without.
-/
namespace WalletRouting
set_option autoImplicit false

namespace ScoreRow

def unplaced (r : ScoreRow) : ScoreRow := { r with ranking := 0 }

/-- Whether the row was left out at the stage of the rules. -/
def ruledOut (r : ScoreRow) : Bool := r.exclusionStage = some Ruling.stageName

end ScoreRow

namespace Ruling

def exclusion? (s : Ruling) (id : String) : Option Exclusion := s.exclusions.find? fun x => x.credentialId = id

def reasonFor (s : Ruling) (id : String) : String := ((s.exclusion? id).map fun x => x.reason).getD ""

/-- Whether the ruling lists the instrument, and it is eligible and not forced. -/
def bars (s : Ruling) (i : Instrument) : Bool :=
  i.eligible && s.forcedId ≠ some i.id && (s.exclusion? i.id).isSome

theorem Decides.get?_excluded {met : List Encounter} {s : Ruling} (h : Decides met s) (id : String) :
    s.excluded.get? id = (s.exclusion? id).map fun x => x.reason := by
  by_cases hmem : id ∈ s.excluded.keys
  · obtain ⟨e, hlast⟩ := exists_excludes_iff.mp ((h.touched id).mp (Or.inl hmem))
    have hyields : s.yields id = false :=
      Bool.eq_false_iff.mpr fun hyields => h.not_excluded_of_yields hyields hmem
    obtain ⟨hget, hlist, -⟩ := h.excluded id e hlast hyields
    rw [hget, exclusion?, ← List.head?_filter, hlist]
    rfl
  · have hnone : s.exclusion? id = none := by
      rw [exclusion?, List.find?_eq_none]
      intro x hx heq
      exact hmem (h.mem_exclusions_iff.mp ⟨x, hx, of_decide_eq_true heq⟩)
    rw [Keyed.get?_eq_none_iff.mpr hmem, hnone]
    rfl

end Ruling

namespace ScoreTable

theorem map_unplaced_numberFrom (n : Int) (rows : List ScoreRow) :
    (numberFrom n rows).map ScoreRow.unplaced = rows.map ScoreRow.unplaced := by
  induction rows generalizing n with
  | nil => rfl
  | cons r rest ih => rw [numberFrom, List.map_cons, List.map_cons, ih]; rfl

theorem filter_ruledOut_ranked {rows : List ScoreRow} (hclosed : ∀ r ∈ rows, r.ruledOut = true → r.excluded = true) :
    ((ranked rows).filter ScoreRow.ruledOut).map ScoreRow.unplaced =
      (rows.filter ScoreRow.ruledOut).map ScoreRow.unplaced := by
  have hunplaced : ScoreRow.ruledOut ∘ ScoreRow.unplaced = ScoreRow.ruledOut := rfl
  -- Only the open rows are sorted, and none of them is left out by the rules.
  have hopen : (Ordered.sort scoreLe (rows.filter fun r => !r.excluded)).filter ScoreRow.ruledOut = [] := by
    rw [List.filter_eq_nil_iff]
    intro r hr hruled
    obtain ⟨hmem, hopen⟩ := List.mem_filter.mp (Ordered.mem_sort.mp hr)
    rw [hclosed r hmem hruled] at hopen
    cases hopen
  have hall : (rows.filter fun r => r.excluded).filter ScoreRow.ruledOut = rows.filter ScoreRow.ruledOut := by
    rw [List.filter_filter]
    apply List.filter_congr
    intro r hr
    cases hruled : r.ruledOut with
    | true => rw [hclosed r hr hruled]; rfl
    | false => rfl
  calc
    _ = ((ranked rows).map ScoreRow.unplaced).filter ScoreRow.ruledOut := by rw [List.filter_map, hunplaced]
    _ = ((Ordered.sort scoreLe (rows.filter fun r => !r.excluded) ++ rows.filter fun r => r.excluded).map
          ScoreRow.unplaced).filter ScoreRow.ruledOut := by rw [ranked, map_unplaced_numberFrom]
    _ = _ := by rw [List.filter_map, hunplaced, List.filter_append, hopen, hall, List.nil_append]

/-- The gate of the rules is closed to those who are eligible, not forced, and excluded with a reason. -/
theorem gate?_stage (s : Guidance) (assessments : Keyed RiskAssessment) (forced : Option String) (i : Instrument) :
    (i.eligible && forced ≠ some i.id && s.reason i.id ≠ "") = true ∧
        gate? s assessments forced i = some ⟨s.reason i.id, Ruling.stageName⟩ ∨
      (i.eligible && forced ≠ some i.id && s.reason i.id ≠ "") = false ∧
        ∀ g, gate? s assessments forced i = some g → g.stage ≠ Ruling.stageName := by
  unfold gate?
  by_cases hforced : forced = some i.id
  · exact Or.inr ⟨by simp [hforced], by simp [hforced]⟩
  · rw [if_neg hforced]
    cases heligible : i.eligible with
    | false =>
      refine Or.inr ⟨rfl, ?_⟩
      rintro g ⟨⟩
      decide
    | true =>
      by_cases hreason : s.reason i.id = ""
      · refine Or.inr ⟨by simp [hreason], ?_⟩
        intro g hg
        simp only [hreason, Bool.not_true, Bool.false_eq_true, if_false, ne_eq, not_true_eq_false] at hg
        split at hg
        · split at hg
          · cases hg
            simp [Ruling.stageName]
          · cases hg
        · cases hg
      · refine Or.inl ⟨by simp [hforced, hreason], ?_⟩
        simp only [Bool.not_true, Bool.false_eq_true, if_false, ne_eq, hreason, not_false_eq_true, if_true]
        rfl

theorem row_ruledOut (weights : Weights) (t : Transaction) (u : User) (s : Guidance)
    (assessments : Keyed RiskAssessment) (forced : Option String) (i : Instrument) :
    (row weights t u s assessments forced i).ruledOut =
        (i.eligible && forced ≠ some i.id && s.reason i.id ≠ "") ∧
      ((row weights t u s assessments forced i).ruledOut = true →
        row weights t u s assessments forced i = closedRow i ⟨s.reason i.id, Ruling.stageName⟩) := by
  unfold row
  rcases gate?_stage s assessments forced i with ⟨hbarred, hgate⟩ | ⟨hbarred, hgate⟩
  · rw [hgate, hbarred]
    exact ⟨rfl, fun _ => rfl⟩
  · have hruled : (row weights t u s assessments forced i).ruledOut = false := by
      unfold row
      cases hg : gate? s assessments forced i with
      | none => rfl
      | some g => exact decide_eq_false fun heq => hgate g hg (Option.some.inj heq)
    unfold row at hruled
    rw [hruled, hbarred]
    exact ⟨rfl, fun h => absurd h Bool.false_ne_true⟩

theorem ruledOut_ofRows (weights : Weights) (t : Transaction) (u : User) (s : Guidance)
    (assessments : Keyed RiskAssessment) (forced : Option String) (instruments : List Instrument) :
    ((ofRows weights (instruments.map (row weights t u s assessments forced))).rows.filter
        ScoreRow.ruledOut).map ScoreRow.unplaced =
      (instruments.filter fun i => i.eligible && forced ≠ some i.id && s.reason i.id ≠ "").map fun i =>
        closedRow i ⟨s.reason i.id, Ruling.stageName⟩ := by
  have hrow := row_ruledOut weights t u s assessments forced
  have hclosed : ∀ r ∈ instruments.map (row weights t u s assessments forced), r.ruledOut = true →
      r.excluded = true := by
    intro r hr hruled
    obtain ⟨i, -, rfl⟩ := List.mem_map.mp hr
    rw [(hrow i).2 hruled]
    rfl
  have hfilter : ScoreRow.ruledOut ∘ row weights t u s assessments forced =
      fun i => i.eligible && forced ≠ some i.id && s.reason i.id ≠ "" := funext fun i => (hrow i).1
  refine (filter_ruledOut_ranked hclosed).trans ?_
  rw [List.filter_map, List.map_map, hfilter]
  apply List.map_congr_left
  intro i hi
  have hruled := (hrow i).1.trans (List.mem_filter.mp hi).2
  rw [Function.comp_apply, (hrow i).2 hruled]
  rfl

/-- The table shows all whom the ruling lists, with the reason that it lists, and no one else. -/
def Marks (s : Ruling) (instruments : List Instrument) (table : ScoreTable) : Prop :=
  (table.rows.filter ScoreRow.ruledOut).map ScoreRow.unplaced =
    (instruments.filter s.bars).map fun i => closedRow i ⟨s.reasonFor i.id, Ruling.stageName⟩

theorem map_filter_and_eq_iff {α β : Type} (f : α → β) (p q : α → Bool) (l : List α) :
    (l.filter fun a => p a && q a).map f = (l.filter p).map f ↔ ∀ a ∈ l, p a = true → q a = true := by
  have hfilter : (l.filter fun a => p a && q a) = (l.filter p).filter q := by
    rw [List.filter_filter]
    exact List.filter_congr fun a _ => Bool.and_comm _ _
  rw [hfilter]
  constructor
  · intro h a ha hp
    have hlength := congrArg List.length h
    rw [List.length_map, List.length_map] at hlength
    exact List.length_filter_eq_length_iff.mp hlength a (List.mem_filter.mpr ⟨ha, hp⟩)
  · intro h
    rw [List.filter_eq_self.mpr]
    intro a ha
    obtain ⟨hmem, hp⟩ := List.mem_filter.mp ha
    exact h a hmem hp

/-- Unless the weights are refused there is a table. It shows whom the ruling lists with a reason, so that it shows all
whom the ruling lists exactly if none of them is listed without. -/
theorem ofInstruments_marks_iff (rules : List Rule) (t : Transaction) (instruments : List Instrument) (u : User)
    (now : Int) (assessments : Keyed RiskAssessment) :
    let s := Ruling.evaluate rules t instruments u now
    (∃ issues, u.weights.normalize = .bad issues ∧
        ofInstruments instruments t u s.guidance assessments s.forcedId = .error (.unusableWeights issues)) ∨
      ∃ table, ofInstruments instruments t u s.guidance assessments s.forcedId = .ok table ∧
        (table.rows.filter ScoreRow.ruledOut).map ScoreRow.unplaced =
            ((instruments.filter fun i => s.bars i && s.reasonFor i.id ≠ "").map fun i =>
              closedRow i ⟨s.reasonFor i.id, Ruling.stageName⟩) ∧
          (Marks s instruments table ↔ ∀ i ∈ instruments, s.bars i = true → s.reasonFor i.id ≠ "") := by
  intro s
  have hreason (id : String) : s.guidance.reason id = s.reasonFor id := by
    change (s.excluded.get? id).getD "" = _
    rw [(Ruling.evaluate_decides rules t instruments u now).get?_excluded id]
    rfl
  unfold ofInstruments
  cases hweights : u.weights.normalize with
  | bad issues => exact Or.inl ⟨issues, rfl, rfl⟩
  | ok weights =>
    have hfault : instruments.findSome? (s.guidance.fault? assessments s.forcedId) = none :=
      List.findSome?_eq_none_iff.mpr fun _ _ => rfl
    -- Whoever has a reason that is not empty is listed.
    have hbars (i : Instrument) : (i.eligible && s.forcedId ≠ some i.id && s.reasonFor i.id ≠ "") =
        (s.bars i && s.reasonFor i.id ≠ "") := by
      unfold Ruling.bars Ruling.reasonFor
      cases s.exclusion? i.id <;> simp
    have hrows := ruledOut_ofRows weights t u s.guidance assessments s.forcedId instruments
    simp only [hreason, hbars] at hrows
    refine Or.inr ⟨_, by rw [hfault], hrows, ?_⟩
    rw [Marks, hrows, map_filter_and_eq_iff]
    simp only [ne_eq, decide_not, Bool.not_eq_true', decide_eq_false_iff_not]

end ScoreTable

namespace Sample

/-- A rule that excludes without saying why. -/
def unreasoned (id : String) : Rule := { exclusion id with action := Baseline.exclude "" }

end Sample

namespace ScoreTable

/-- Who is excluded without a reason is listed, and is at the top of the table all the same. -/
theorem misses_exclusion_without_reason :
    let s := Ruling.evaluate [Sample.unreasoned "a"] Sample.purchase Sample.user.instruments Sample.user 0
    ∃ table, ofInstruments Sample.user.instruments Sample.purchase Sample.user s.guidance [] s.forcedId = .ok table ∧
      s.exclusions.map (fun x => x.credentialId) = ["a"] ∧ table.top.map (fun row => row.credentialId) = some "a" ∧
        ¬Marks s Sample.user.instruments table := by
  intro s
  have hbarred : (Sample.user.instruments.filter s.bars).length = 1 := by decide +kernel
  have hok : (ofInstruments Sample.user.instruments Sample.purchase Sample.user s.guidance [] s.forcedId).toOption.map
      (fun table => (table.top.map fun row => row.credentialId, (table.rows.filter ScoreRow.ruledOut).length)) =
        some (some "a", 0) := by
    decide +kernel
  cases htable : ofInstruments Sample.user.instruments Sample.purchase Sample.user s.guidance [] s.forcedId with
  | error e =>
    rw [htable] at hok
    cases hok
  | ok table =>
    rw [htable] at hok
    obtain ⟨htop, hnone⟩ := Prod.mk.inj (Option.some.inj hok)
    refine ⟨table, rfl, by decide +kernel, htop, ?_⟩
    intro hmarks
    have hlength := congrArg List.length hmarks
    rw [List.length_map, List.length_map, hnone, hbarred] at hlength
    cases hlength

end ScoreTable

end WalletRouting
