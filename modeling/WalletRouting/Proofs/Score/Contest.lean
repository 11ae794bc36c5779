import WalletRouting.Proofs.Number.Places
import WalletRouting.Proofs.Score.Ranking

/-! # The contest on a table

What an instrument scores does not depend on the gates. So there is one contest of all instruments, in the stable order
of their scores, and the top of a table is the first in it that the gates let pass. Gates that let fewer pass keep the top
exactly if they let it pass.
-/
namespace WalletRouting
set_option autoImplicit false

namespace Double

theorem le_of_not_le {x y : Double} (hx : 0 ≤ x) (hy : 0 ≤ y) (h : ¬x ≤ y) : y ≤ x :=
  le_of_not_lt hx hy fun hlt => h (le_of_lt hlt)

theorem measures_clamp (x : Double) : ∃ q, Measures (clamp 0 100 x) q ∧ q ≤ (100 : Nat) := by
  obtain ⟨hlow, hhigh⟩ := clamp_between (show (0 : Double) ≤ 100 by decide) x
  have hundred : Measures 100 (100 : Nat) := measures_ofNat (by decide)
  obtain ⟨q, hq⟩ := measures_of_le hlow hhigh hundred
  exact ⟨q, hq, (hq.le_iff hundred).mp hhigh⟩

theorem roundPlaces_clamp_bounds (x : Double) :
    0 ≤ (clamp 0 100 x).roundPlaces 2 ∧ (clamp 0 100 x).roundPlaces 2 ≤ 100 := by
  obtain ⟨q, hq, hle⟩ := measures_clamp x
  exact roundPlaces_bounds hq hle

end Double

namespace ScoreTable

section Contest

variable (weights : Weights) (t : Transaction) (u : User) (s : Guidance) (assessments : Keyed RiskAssessment)

theorem final_openRow_bounds (i : Instrument) :
    0 ≤ (openRow weights t u s assessments i).final ∧ (openRow weights t u s assessments i).final ≤ 100 :=
  Double.roundPlaces_clamp_bounds _

theorem final_row_nonneg (forced : Option String) (i : Instrument) :
    0 ≤ (row weights t u s assessments forced i).final := by
  unfold row
  cases gate? s assessments forced i with
  | none => exact (final_openRow_bounds weights t u s assessments i).1
  | some g => exact show (0 : Double) ≤ 0 by decide

/-- `i` does not score below `j`. -/
def outscores (i j : Instrument) : Bool :=
  scoreLe (openRow weights t u s assessments i) (openRow weights t u s assessments j)

/-- All instruments by what they score, those of one score as the wallet has them. -/
def contest (instruments : List Instrument) : List Instrument :=
  Ordered.sort (outscores weights t u s assessments) instruments

theorem outscores_total (i j : Instrument) (h : outscores weights t u s assessments i j = false) :
    outscores weights t u s assessments j i = true := by
  have hbounds := fun k => (final_openRow_bounds weights t u s assessments k).1
  simp only [outscores, scoreLe, decide_eq_false_iff_not, decide_eq_true_eq] at h ⊢
  exact Double.le_of_not_le (hbounds j) (hbounds i) h

theorem outscores_trans (i j k : Instrument) (h : outscores weights t u s assessments i j = true)
    (h' : outscores weights t u s assessments j k = true) : outscores weights t u s assessments i k = true := by
  simp only [outscores, scoreLe, decide_eq_true_eq] at h h' ⊢
  exact Double.le_trans h' h

variable (forced : Option String)

/-- Whether the gates let an instrument pass. -/
def passes (i : Instrument) : Bool := (gate? s assessments forced i).isNone

theorem filter_map_row (instruments : List Instrument) :
    (instruments.map (row weights t u s assessments forced)).filter (fun r => !r.excluded) =
      (instruments.filter (passes s assessments forced)).map (openRow weights t u s assessments) := by
  induction instruments with
  | nil => rfl
  | cons i rest ih =>
    rw [List.map_cons, List.filter_cons, List.filter_cons, ih, row_excluded, passes]
    cases hgate : gate? s assessments forced i with
    | none =>
      have hrow : row weights t u s assessments forced i = openRow weights t u s assessments i := by
        rw [row, hgate]
      simp [hrow]
    | some g => simp

theorem find?_numberFrom_of_excluded {rows : List ScoreRow} (h : ∀ r ∈ rows, r.excluded = true) (n : Int) :
    (numberFrom n rows).find? (fun r => !r.excluded) = none := by
  rw [List.find?_eq_none]
  intro r hr
  obtain ⟨r', hr', k, rfl⟩ := mem_of_mem_numberFrom hr
  simp [h r' hr']

theorem top_ofRows (rows : List ScoreRow) :
    (ofRows weights rows).top.map (fun r => r.credentialId) =
      (Ordered.sort scoreLe (rows.filter fun r => !r.excluded)).head?.map fun r => r.credentialId := by
  have hopen : ∀ r ∈ Ordered.sort scoreLe (rows.filter fun r => !r.excluded), r.excluded = false := by
    intro r hr
    simpa using (List.mem_filter.mp (Ordered.mem_sort.mp hr)).2
  unfold ofRows ranked
  dsimp only
  cases hsorted : Ordered.sort scoreLe (rows.filter fun r => !r.excluded) with
  | nil =>
    rw [List.nil_append, find?_numberFrom_of_excluded fun r hr => (List.mem_filter.mp hr).2]
    rfl
  | cons first rest =>
    rw [hsorted] at hopen
    simp [numberFrom, hopen first List.mem_cons_self]

/-- The top of a table is the first in the contest that the gates let pass. -/
theorem top_ofInstruments {instruments : List Instrument} {table : ScoreTable}
    (hweights : u.weights.normalize = .ok weights) (h : ofInstruments instruments t u s assessments forced = .ok table) :
    table.top.map (fun r => r.credentialId) =
      ((contest weights t u s assessments instruments).find? (passes s assessments forced)).map fun i => i.id := by
  obtain ⟨used, hused, rfl⟩ := ofInstruments_ok h
  cases hweights.symm.trans hused
  have hsort : Ordered.sort (outscores weights t u s assessments) (instruments.filter (passes s assessments forced)) =
      (contest weights t u s assessments instruments).filter (passes s assessments forced) :=
    (Ordered.sort_filter (outscores_total weights t u s assessments) (outscores_trans weights t u s assessments) _ _).symm
  rw [top_ofRows, filter_map_row, Ordered.sort_map]
  change ((Ordered.sort (outscores weights t u s assessments) _).map _).head?.map _ = _
  rw [hsort, List.head?_map, List.head?_filter, Option.map_map]
  rfl

theorem exists_weights_of_ok {instruments : List Instrument} {table : ScoreTable}
    (h : ofInstruments instruments t u s assessments forced = .ok table) :
    ∃ weights, u.weights.normalize = .ok weights := by
  obtain ⟨weights, hweights, -⟩ := ofInstruments_ok h
  exact ⟨weights, hweights⟩

theorem ids_contest {instruments : List Instrument} (hdistinct : (instruments.map fun i => i.id).Nodup) :
    ((contest weights t u s assessments instruments).map fun i => i.id).Nodup :=
  ((Ordered.sort_perm _ _).map fun i : Instrument => i.id).nodup_iff.mpr hdistinct

end Contest

theorem passes_iff {s : Guidance} {assessments : Keyed RiskAssessment} {forced : Option String} {i : Instrument}
    (hforced : forced ≠ some i.id) :
    passes s assessments forced i = true ↔
      i.eligible = true ∧ s.reason i.id = "" ∧
        ∀ a, assessments.get? i.id = some a → a.veto = true → s.hardOverride = true := by
  rw [passes, Option.isNone_iff_eq_none, gate?_eq_none_iff, or_iff_right hforced]

theorem passes_of_forced {s : Guidance} {assessments : Keyed RiskAssessment} {i : Instrument} :
    passes s assessments (some i.id) i = true := by
  rw [passes, Option.isNone_iff_eq_none, gate?_eq_none_iff]
  exact Or.inl rfl

theorem find?_of_fewer {instruments : List Instrument} {pass fewer : Instrument → Bool} {first : Instrument}
    (hdistinct : (instruments.map fun i => i.id).Nodup) (hfewer : ∀ i ∈ instruments, fewer i = true → pass i = true)
    (hfirst : instruments.find? pass = some first) :
    (instruments.find? fewer).map (fun i => i.id) = some first.id ↔ fewer first = true := by
  have hmem := List.mem_of_find?_eq_some hfirst
  constructor
  · intro h
    obtain ⟨i, hi, hid⟩ := Option.map_eq_some_iff.mp h
    obtain rfl := List.inj_on_of_nodup_map hdistinct (List.mem_of_find?_eq_some hi) hmem hid
    exact List.find?_some hi
  · intro h
    obtain ⟨-, before, behind, rfl, hbefore⟩ := List.find?_eq_some_iff_append.mp hfirst
    have hnone : ∀ i ∈ before, fewer i = false := by
      intro i hi
      by_contra hpass
      rw [Bool.not_eq_false] at hpass
      have hstays := hfewer i (List.mem_append_left _ hi) hpass
      simpa [hstays] using hbefore i hi
    rw [List.find?_append, List.find?_eq_none.mpr (by simpa using hnone), Option.none_or, List.find?_cons_of_pos h]
    rfl

end ScoreTable

end WalletRouting
