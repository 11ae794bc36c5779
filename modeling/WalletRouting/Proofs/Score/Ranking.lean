import WalletRouting.Proofs.Number.Order
import WalletRouting.Proofs.Ordered
import WalletRouting.Score.Table

/-! # The ranking of a table

Placing a row changes nothing but its number. So a table has one row for each instrument, excluded exactly when a gate
is closed, and no row that is not excluded stands behind one with a lower score.
-/
namespace WalletRouting
set_option autoImplicit false

namespace ScoreRow

/-- `b` may stand behind `a`. -/
def Yields (a b : ScoreRow) : Prop := b.excluded = false → ¬a.final < b.final

def named (r : ScoreRow) : String × String := (r.credentialId, r.credentialName)

end ScoreRow

namespace ScoreTable

theorem mem_of_mem_numberFrom {rows : List ScoreRow} {n : Int} {r : ScoreRow} (h : r ∈ numberFrom n rows) :
    ∃ r' ∈ rows, ∃ k, r = { r' with ranking := k } := by
  induction rows generalizing n with
  | nil => cases h
  | cons first rest ih =>
    rcases List.mem_cons.mp h with rfl | h
    · exact ⟨first, List.mem_cons_self, n, rfl⟩
    · obtain ⟨r', hr', hk⟩ := ih h
      exact ⟨r', List.mem_cons_of_mem first hr', hk⟩

theorem mem_numberFrom_of_mem {rows : List ScoreRow} {r : ScoreRow} (h : r ∈ rows) (n : Int) :
    ∃ k, { r with ranking := k } ∈ numberFrom n rows := by
  induction rows generalizing n with
  | nil => cases h
  | cons first rest ih =>
    rcases List.mem_cons.mp h with rfl | h
    · exact ⟨n, List.mem_cons_self⟩
    · obtain ⟨k, hk⟩ := ih h (n + 1)
      exact ⟨k, List.mem_cons_of_mem _ hk⟩

theorem numberFrom_pairwise {rows : List ScoreRow} (h : rows.Pairwise ScoreRow.Yields) (n : Int) :
    (numberFrom n rows).Pairwise ScoreRow.Yields := by
  induction rows generalizing n with
  | nil => exact List.Pairwise.nil
  | cons first rest ih =>
    obtain ⟨hfirst, hrest⟩ := List.pairwise_cons.mp h
    refine List.pairwise_cons.mpr ⟨?_, ih hrest (n + 1)⟩
    intro r hr
    obtain ⟨r', hr', k, rfl⟩ := mem_of_mem_numberFrom hr
    exact hfirst r' hr'

theorem mem_ordered {rows : List ScoreRow} {r : ScoreRow} :
    r ∈ Ordered.sort scoreLe (rows.filter fun r => !r.excluded) ++ rows.filter (fun r => r.excluded) ↔ r ∈ rows := by
  rw [List.mem_append, Ordered.mem_sort, List.mem_filter, List.mem_filter]
  cases r.excluded <;> simp

theorem ordered_pairwise (rows : List ScoreRow) :
    (Ordered.sort scoreLe (rows.filter fun r => !r.excluded) ++ rows.filter fun r => r.excluded).Pairwise
      ScoreRow.Yields := by
  have hexcluded {a b : ScoreRow} (hb : b ∈ rows.filter fun r => r.excluded) : ScoreRow.Yields a b := by
    intro hopen
    rw [(List.mem_filter.mp hb).2] at hopen
    cases hopen
  rw [List.pairwise_append]
  refine ⟨?_, ?_, fun _ _ _ => hexcluded⟩
  · apply Ordered.sort_pairwise
    · intro a b hle _
      exact Double.not_lt_of_le (of_decide_eq_true hle)
    · intro a b hle _ hlt
      exact of_decide_eq_false hle (Double.le_of_lt hlt)
    · intro a b c hle hbc hopen hlt
      exact hbc hopen (Double.lt_of_le_of_lt (of_decide_eq_true hle) hlt)
  · exact List.pairwise_iff_forall_sublist.mpr fun hsub => hexcluded (hsub.subset (by simp))

theorem best_of_find? {rows : List ScoreRow} {row : ScoreRow} (h : rows.Pairwise ScoreRow.Yields)
    (hfind : rows.find? (fun r => !r.excluded) = some row) :
    row ∈ rows ∧ row.excluded = false ∧ ∀ other ∈ rows, other.excluded = false → ¬row.final < other.final := by
  obtain ⟨hopen, before, behind, rfl, hbefore⟩ := List.find?_eq_some_iff_append.mp hfind
  refine ⟨by simp, by simpa using hopen, ?_⟩
  intro other hother hopen
  rcases List.mem_append.mp hother with hmem | hmem
  · have hexcluded := hbefore other hmem
    rw [hopen] at hexcluded
    cases hexcluded
  · rcases List.mem_cons.mp hmem with rfl | hmem
    · exact Double.not_lt_self _
    · exact (List.pairwise_cons.mp (List.pairwise_append.mp h).2.1).1 other hmem hopen

/-- What a table is to the gates of its instruments. -/
structure Ranks (gate : Instrument → Option GateClosed) (instruments : List Instrument) (table : ScoreTable) :
    Prop where
  top : table.top = table.rows.find? fun r => !r.excluded
  descending : table.rows.Pairwise ScoreRow.Yields
  sound : ∀ row ∈ table.rows, ∃ i ∈ instruments, row.credentialId = i.id ∧ row.excluded = (gate i).isSome
  complete : ∀ i ∈ instruments, ∃ row ∈ table.rows, row.credentialId = i.id ∧ row.excluded = (gate i).isSome

theorem row_credentialId (weights : Weights) (t : Transaction) (u : User) (s : Guidance)
    (assessments : Keyed RiskAssessment) (forced : Option String) (i : Instrument) :
    (row weights t u s assessments forced i).credentialId = i.id := by
  unfold row
  cases gate? s assessments forced i <;> rfl

theorem row_credentialName (weights : Weights) (t : Transaction) (u : User) (s : Guidance)
    (assessments : Keyed RiskAssessment) (forced : Option String) (i : Instrument) :
    (row weights t u s assessments forced i).credentialName = i.name := by
  unfold row
  cases gate? s assessments forced i <;> rfl

theorem row_excluded (weights : Weights) (t : Transaction) (u : User) (s : Guidance)
    (assessments : Keyed RiskAssessment) (forced : Option String) (i : Instrument) :
    (row weights t u s assessments forced i).excluded = (gate? s assessments forced i).isSome := by
  unfold row
  cases gate? s assessments forced i <;> rfl

theorem ofInstruments_ok {instruments : List Instrument} {t : Transaction} {u : User} {s : Guidance}
    {assessments : Keyed RiskAssessment} {forced : Option String} {table : ScoreTable}
    (h : ofInstruments instruments t u s assessments forced = .ok table) :
    ∃ weights, u.weights.normalize = .ok weights ∧
      table = ofRows weights (instruments.map (row weights t u s assessments forced)) := by
  unfold ofInstruments at h
  cases hweights : u.weights.normalize with
  | bad issues =>
    rw [hweights] at h
    cases h
  | ok weights =>
    rw [hweights] at h
    dsimp only at h
    split at h
    · cases h
    · cases h
      exact ⟨weights, rfl, rfl⟩

theorem ofInstruments_of_ruling {u : User} {weights : Weights} (hweights : u.weights.normalize = .ok weights)
    (instruments : List Instrument) (t : Transaction) (s : Ruling) (assessments : Keyed RiskAssessment)
    (forced : Option String) :
    ofInstruments instruments t u s.guidance assessments forced =
      .ok (ofRows weights (instruments.map (row weights t u s.guidance assessments forced))) := by
  have hfault : instruments.findSome? (s.guidance.fault? assessments forced) = none :=
    List.findSome?_eq_none_iff.mpr fun _ _ => rfl
  unfold ofInstruments
  rw [hweights]
  dsimp only
  rw [hfault]

theorem ofInstruments_ranks {instruments : List Instrument} {t : Transaction} {u : User} {s : Guidance}
    {assessments : Keyed RiskAssessment} {forced : Option String} {table : ScoreTable}
    (h : ofInstruments instruments t u s assessments forced = .ok table) :
    Ranks (gate? s assessments forced) instruments table := by
  obtain ⟨weights, -, rfl⟩ := ofInstruments_ok h
  refine
    { top := rfl
      descending := numberFrom_pairwise (ordered_pairwise _) 1
      sound := ?_
      complete := ?_ }
  · intro r hr
    obtain ⟨r', hr', k, rfl⟩ := mem_of_mem_numberFrom hr
    obtain ⟨i, hi, rfl⟩ := List.mem_map.mp (mem_ordered.mp hr')
    exact ⟨i, hi, row_credentialId _ _ _ _ _ _ i, row_excluded _ _ _ _ _ _ i⟩
  · intro i hi
    have hmem := mem_ordered.mpr (List.mem_map_of_mem (f := row weights t u s assessments forced) hi)
    obtain ⟨k, hk⟩ := mem_numberFrom_of_mem hmem 1
    exact ⟨_, hk, row_credentialId weights t u s assessments forced i,
      row_excluded weights t u s assessments forced i⟩

theorem map_named_numberFrom (n : Int) (rows : List ScoreRow) :
    (numberFrom n rows).map ScoreRow.named = rows.map ScoreRow.named := by
  induction rows generalizing n with
  | nil => rfl
  | cons r rest ih =>
    rw [numberFrom, List.map_cons, List.map_cons, ih]
    rfl

theorem ofInstruments_named {instruments : List Instrument} {t : Transaction} {u : User} {s : Guidance}
    {assessments : Keyed RiskAssessment} {forced : Option String} {table : ScoreTable}
    (h : ofInstruments instruments t u s assessments forced = .ok table) :
    (table.rows.map ScoreRow.named).Perm (instruments.map fun i => (i.id, i.name)) := by
  obtain ⟨weights, -, rfl⟩ := ofInstruments_ok h
  have hnamed : ScoreRow.named ∘ row weights t u s assessments forced = fun i => (i.id, i.name) := by
    funext i
    unfold Function.comp row
    cases gate? s assessments forced i <;> rfl
  rw [← hnamed, ← List.map_map]
  generalize instruments.map (row weights t u s assessments forced) = rows
  change ((ranked rows).map ScoreRow.named).Perm _
  rw [ranked, map_named_numberFrom]
  refine List.Perm.map _ ?_
  calc
    List.Perm _ _ := (Ordered.sort_perm _ _).append_right _
    List.Perm _ _ := List.perm_append_comm
    List.Perm _ rows := List.filter_append_perm (fun r => r.excluded) rows

theorem gate?_eq_none_iff {s : Guidance} {assessments : Keyed RiskAssessment} {forced : Option String}
    {i : Instrument} :
    gate? s assessments forced i = none ↔
      forced = some i.id ∨
        i.eligible = true ∧ s.reason i.id = "" ∧
          ∀ a, assessments.get? i.id = some a → a.veto = true → s.hardOverride = true := by
  unfold gate?
  by_cases hforced : forced = some i.id
  · simp [hforced]
  · rw [if_neg hforced]
    cases heligible : i.eligible with
    | false => simp [hforced]
    | true =>
      by_cases hreason : s.reason i.id = ""
      · cases hassessed : assessments.get? i.id with
        | none => simp [hreason]
        | some a => cases hveto : a.veto <;> cases s.hardOverride <;> simp [hforced, hreason, hveto]
      · simp [hforced, hreason]

/-- Barred from a route by what the records of a run say. -/
def Barred (exclusions : List Exclusion) (assessments : Keyed RiskAssessment) (i : Instrument) : Prop :=
  i.eligible = false ∨ (∃ x ∈ exclusions, x.credentialId = i.id) ∨
    ∃ a, assessments.get? i.id = some a ∧ a.veto = true

end ScoreTable

end WalletRouting
