import WalletRouting.Proofs.Run.Selection
import WalletRouting.Proofs.Score.Contest
import WalletRouting.Proofs.Score.Weights

/-! # Places on a table

A table loses no instrument and shows none twice, whatever their ids. Each row stands for one place of the wallet, and
what the gates do to an instrument, its score and its place in the wallet say where its row stands.
-/
namespace WalletRouting
set_option autoImplicit false

namespace ScoreTable

/-- A row, and the place in the wallet of the instrument that it stands for. -/
abbrev Placed := ScoreRow × Nat

/-- Which gate is closed to an instrument, as its row tells: the first of those that would be. -/
structure Gated (s : Ruling) (assessments : Keyed RiskAssessment) (forced : Option String) (i : Instrument)
    (r : ScoreRow) : Prop where
  profile : r.exclusionStage = some "Profile Fetch" ↔ forced ≠ some i.id ∧ i.eligible = false
  rules : r.exclusionStage = some "Rule Evaluation" ↔
    forced ≠ some i.id ∧ i.eligible = true ∧ ∃ reason, s.excluded.get? i.id = some reason ∧ reason ≠ ""
  risk : r.exclusionStage = some "Candidate Filtering" ↔
    forced ≠ some i.id ∧ i.eligible = true ∧ (¬∃ reason, s.excluded.get? i.id = some reason ∧ reason ≠ "") ∧
      s.hardOverride = false ∧ ∃ a, assessments.get? i.id = some a ∧ a.veto = true
  excluded : r.excluded = true ↔ r.exclusionStage = some "Profile Fetch" ∨ r.exclusionStage = some "Rule Evaluation" ∨
    r.exclusionStage = some "Candidate Filtering"
  scoreless : r.excluded = true → r.final = 0

/-- Which of two rows stands first. -/
inductive Before (p q : Placed) : Prop where
  | apart (hp : p.1.excluded = false) (hq : q.1.excluded = true)
  | closed (hp : p.1.excluded = true) (hq : q.1.excluded = true) (hplace : p.2 < q.2)
  | passed (hp : p.1.excluded = false) (hq : q.1.excluded = false) (hscore : q.1.final ≤ p.1.final)
      (htie : p.1.final ≤ q.1.final → p.2 < q.2)

/-- What there is to say of a table of these instruments. -/
structure Complete (s : Ruling) (assessments : Keyed RiskAssessment) (forced : Option String)
    (instruments : List Instrument) (table : ScoreTable) (placed : List Placed) : Prop where
  rows : placed.map Prod.fst = table.rows
  once : (placed.map Prod.snd).Perm (List.range instruments.length)
  told : ∀ p ∈ placed, ∃ i, instruments[p.2]? = some i ∧ p.1.credentialId = i.id ∧ p.1.credentialName = i.name ∧
    Gated s assessments forced i p.1
  ordered : placed.Pairwise Before
  numbered : ∀ (k : Nat) (r : ScoreRow), table.rows[k]? = some r → r.ranking = (k : Int) + 1
  top : table.top = table.rows.find? fun r => !r.excluded
  passed : table.candidates = (table.rows.filter fun r => !r.excluded).length
  counted : table.candidates + table.excluded = instruments.length

section Rows

variable (weights : Weights) (t : Transaction) (u : User) (s : Ruling) (assessments : Keyed RiskAssessment)
  (forced : Option String)

theorem reason_ne_empty_iff (id : String) :
    s.guidance.reason id ≠ "" ↔ ∃ reason, s.excluded.get? id = some reason ∧ reason ≠ "" := by
  change (s.excluded.get? id).getD "" ≠ "" ↔ _
  cases s.excluded.get? id <;> simp

theorem gated_row (i : Instrument) :
    Gated s assessments forced i (row weights t u s.guidance assessments forced i) := by
  have hreason := reason_ne_empty_iff s i.id
  have hoverride : s.guidance.hardOverride = s.hardOverride := rfl
  by_cases hforced : forced = some i.id
  · have hrow : row weights t u s.guidance assessments forced i = openRow weights t u s.guidance assessments i := by
      simp [row, gate?, hforced]
    rw [hrow]
    constructor <;> simp [openRow, hforced]
  · cases heligible : i.eligible with
    | false =>
      have hrow : row weights t u s.guidance assessments forced i =
          closedRow i ⟨"Credential not eligible", "Profile Fetch"⟩ := by
        simp [row, gate?, hforced, heligible]
      rw [hrow]
      constructor <;> simp [closedRow, hforced, heligible]
    | true =>
      by_cases hruled : s.guidance.reason i.id = ""
      · have hunruled : ¬∃ reason, s.excluded.get? i.id = some reason ∧ reason ≠ "" := by
          rw [← hreason, hruled]
          exact fun h => h rfl
        by_cases hrisk : s.hardOverride = false ∧ ∃ a, assessments.get? i.id = some a ∧ a.veto = true
        · obtain ⟨hopen, a, hassessed, hveto⟩ := hrisk
          have hrow : row weights t u s.guidance assessments forced i = closedRow i
              ⟨if given a.vetoReason then a.vetoReason.getD "" else "Risk veto", "Candidate Filtering"⟩ := by
            simp [row, gate?, hforced, heligible, hruled, hassessed, hveto, hoverride, hopen]
          rw [hrow]
          constructor <;> simp [closedRow, hforced, heligible, hunruled, hopen, hassessed, hveto]
        · have hrow : row weights t u s.guidance assessments forced i =
              openRow weights t u s.guidance assessments i := by
            have hgate : gate? s.guidance assessments forced i = none := by
              refine gate?_eq_none_iff.mpr (.inr ⟨heligible, hruled, fun a hassessed hveto => ?_⟩)
              by_contra hopen
              exact hrisk ⟨Bool.eq_false_iff.mpr hopen, a, hassessed, hveto⟩
            rw [row, hgate]
          rw [hrow]
          constructor <;> simp_all [openRow]
      · have hrow : row weights t u s.guidance assessments forced i =
            closedRow i ⟨s.guidance.reason i.id, "Rule Evaluation"⟩ := by
          simp [row, gate?, hforced, heligible, hruled]
        rw [hrow]
        constructor <;> simp [closedRow, hforced, heligible, ← hreason, hruled]

end Rows

section Placement

variable {rows : List ScoreRow}

/-- The rows of a table in the order in which they are to stand, each with its place in the wallet. -/
def placements (rows : List ScoreRow) : List Placed :=
  Ordered.sort (fun p q => scoreLe p.1 q.1) (rows.zipIdx.filter fun p => !p.1.excluded) ++
    rows.zipIdx.filter fun p => p.1.excluded

theorem filter_zipIdx_map_fst (keep : ScoreRow → Bool) (rows : List ScoreRow) :
    (rows.zipIdx.filter fun p => keep p.1).map Prod.fst = rows.filter keep := by
  conv_rhs => rw [← List.zipIdx_map_fst 0 rows, List.filter_map]
  rfl

theorem placements_map_fst (rows : List ScoreRow) :
    (placements rows).map Prod.fst =
      Ordered.sort scoreLe (rows.filter fun r => !r.excluded) ++ rows.filter fun r => r.excluded := by
  rw [placements, List.map_append, ← Ordered.sort_map, filter_zipIdx_map_fst fun r => !r.excluded,
    filter_zipIdx_map_fst fun r => r.excluded]

theorem placements_perm (rows : List ScoreRow) : (placements rows).Perm rows.zipIdx :=
  calc
    (placements rows).Perm _ := (Ordered.sort_perm _ _).append_right _
    List.Perm _ _ := List.perm_append_comm
    List.Perm _ rows.zipIdx := List.filter_append_perm (fun p => p.1.excluded) rows.zipIdx

theorem zipIdx_pairwise (rows : List ScoreRow) : rows.zipIdx.Pairwise fun p q => p.2 < q.2 := by
  rw [← List.pairwise_map, List.zipIdx_map_snd]
  exact List.pairwise_lt_range' 1

theorem placements_pairwise (hscores : ∀ r ∈ rows, 0 ≤ r.final) : (placements rows).Pairwise Before := by
  have hnonneg : ∀ p ∈ rows.zipIdx, 0 ≤ p.1.final := fun p hp =>
    hscores p.1 (List.mem_of_getElem? (List.mem_zipIdx_iff_getElem?.mp hp))
  have hopen : ∀ p ∈ rows.zipIdx.filter fun p => !p.1.excluded, p.1.excluded = false := fun p hp => by
    simpa using (List.mem_filter.mp hp).2
  have hclosed : ∀ p ∈ rows.zipIdx.filter fun p => p.1.excluded, p.1.excluded = true := fun p hp =>
    (List.mem_filter.mp hp).2
  rw [placements, List.pairwise_append]
  refine ⟨?_, ?_, fun p hp q hq => .apart (hopen p (Ordered.mem_sort.mp hp)) (hclosed q hq)⟩
  · have hcame : (rows.zipIdx.filter fun p => !p.1.excluded).Pairwise fun p q =>
        (p.1.excluded = false ∧ 0 ≤ p.1.final) ∧ (q.1.excluded = false ∧ 0 ≤ q.1.final) ∧ p.2 < q.2 := by
      refine List.Pairwise.imp_of_mem ?_ ((zipIdx_pairwise rows).filter _)
      intro p q hp hq hplace
      have hscore {p : Placed} (hp : p ∈ rows.zipIdx.filter fun p => !p.1.excluded) : 0 ≤ p.1.final :=
        hnonneg p (List.mem_filter.mp hp).1
      exact ⟨⟨hopen p hp, hscore hp⟩, ⟨hopen q hq, hscore hq⟩, hplace⟩
    refine Ordered.sort_pairwise_of_pairwise ?_ ?_ ?_ hcame
    · rintro p q ⟨⟨hp, -⟩, ⟨hq, -⟩, hplace⟩ hle
      exact .passed hp hq (of_decide_eq_true hle) fun _ => hplace
    · rintro p q ⟨⟨hp, hscore⟩, ⟨hq, hscore'⟩, -⟩ hnot
      have hbelow : ¬q.1.final ≤ p.1.final := of_decide_eq_false hnot
      exact .passed hq hp (Double.le_of_not_le hscore' hscore hbelow) fun h => absurd h hbelow
    · rintro p q r ⟨⟨hp, -⟩, ⟨hr, -⟩, hplace⟩ hle hqr
      cases hqr with
      | apart _ hclosed => simp [hr] at hclosed
      | closed _ hclosed _ => simp [hr] at hclosed
      | passed _ _ hscore _ => exact .passed hp hr (Double.le_trans hscore (of_decide_eq_true hle)) fun _ => hplace
  · refine List.Pairwise.imp_of_mem ?_ ((zipIdx_pairwise rows).filter _)
    intro p q hp hq hplace
    exact .closed (hclosed p hp) (hclosed q hq) hplace

def numberPlaced (n : Int) : List Placed → List Placed
  | [] => []
  | p :: rest => ({ p.1 with ranking := n }, p.2) :: numberPlaced (n + 1) rest

theorem numberPlaced_map_fst (n : Int) (placed : List Placed) :
    (numberPlaced n placed).map Prod.fst = numberFrom n (placed.map Prod.fst) := by
  induction placed generalizing n with
  | nil => rfl
  | cons p rest ih => simp [numberPlaced, numberFrom, ih]

theorem numberPlaced_map_snd (n : Int) (placed : List Placed) :
    (numberPlaced n placed).map Prod.snd = placed.map Prod.snd := by
  induction placed generalizing n with
  | nil => rfl
  | cons p rest ih => simp [numberPlaced, ih]

theorem mem_numberPlaced {n : Int} {placed : List Placed} {p : Placed} (h : p ∈ numberPlaced n placed) :
    ∃ q ∈ placed, ∃ k, p = ({ q.1 with ranking := k }, q.2) := by
  induction placed generalizing n with
  | nil => cases h
  | cons q rest ih =>
    rcases List.mem_cons.mp h with rfl | h
    · exact ⟨q, List.mem_cons_self, n, rfl⟩
    · obtain ⟨q', hq', hp⟩ := ih h
      exact ⟨q', List.mem_cons_of_mem q hq', hp⟩

theorem Before.number {p q : Placed} (h : Before p q) (m n : Int) :
    Before ({ p.1 with ranking := m }, p.2) ({ q.1 with ranking := n }, q.2) := by
  cases h with
  | apart hp hq => exact .apart hp hq
  | closed hp hq hplace => exact .closed hp hq hplace
  | passed hp hq hscore htie => exact .passed hp hq hscore htie

theorem numberPlaced_pairwise {placed : List Placed} (h : placed.Pairwise Before) (n : Int) :
    (numberPlaced n placed).Pairwise Before := by
  induction placed generalizing n with
  | nil => exact .nil
  | cons p rest ih =>
    obtain ⟨hp, hrest⟩ := List.pairwise_cons.mp h
    refine List.pairwise_cons.mpr ⟨?_, ih hrest (n + 1)⟩
    intro q hq
    obtain ⟨q', hq', k, rfl⟩ := mem_numberPlaced hq
    exact (hp q' hq').number n k

theorem ranking_of_numberFrom {n : Int} {r : ScoreRow} {k : Nat} (h : (numberFrom n rows)[k]? = some r) :
    r.ranking = n + k := by
  induction rows generalizing n k with
  | nil => cases h
  | cons first rest ih =>
    cases k with
    | zero =>
      cases h
      simp
    | succ k =>
      rw [ih h]
      push_cast
      omega

theorem length_filter_numberFrom (n : Int) (rows : List ScoreRow) :
    ((numberFrom n rows).filter fun r => !r.excluded).length = (rows.filter fun r => !r.excluded).length := by
  induction rows generalizing n with
  | nil => rfl
  | cons r rest ih => cases hexcluded : r.excluded <;> simp [numberFrom, hexcluded, ih]

theorem candidates_ofRows (weights : Weights) (rows : List ScoreRow) :
    (ofRows weights rows).candidates = ((ofRows weights rows).rows.filter fun r => !r.excluded).length := by
  have hperm : ((placements rows).map Prod.fst).Perm rows := by
    simpa only [List.zipIdx_map_fst] using (placements_perm rows).map Prod.fst
  rw [placements_map_fst] at hperm
  exact ((hperm.filter _).length_eq.symm).trans (length_filter_numberFrom 1 _).symm

end Placement

theorem Gated.number {s : Ruling} {assessments : Keyed RiskAssessment} {forced : Option String} {i : Instrument}
    {r : ScoreRow} (h : Gated s assessments forced i r) (n : Int) :
    Gated s assessments forced i { r with ranking := n } :=
  ⟨h.profile, h.rules, h.risk, h.excluded, h.scoreless⟩

end ScoreTable

end WalletRouting
