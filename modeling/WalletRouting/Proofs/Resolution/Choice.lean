import WalletRouting.Proofs.Number.Order
import WalletRouting.Proofs.Score.Ranking
import WalletRouting.Resolution.Choice

/-! # The child that is chosen

Whatever the strategy, the child is one of those that take part: the least utilized comes from the list it is looked for
in, and where no row or no position points at a child, it is the first. What a resolution holds besides, the assessments
and the table, is said once, for all that is proved of resolutions.
-/
namespace WalletRouting
set_option autoImplicit false

namespace Resolution

/-! ## The least utilized -/

/-- Nobody before the child has a utilization as low, and nobody behind it a lower one. -/
structure Least (before : List Credential) (child : Credential) (behind : List Credential) : Prop where
  before : ∀ c ∈ before, ¬c.utilization ≤ child.utilization
  behind : ∀ c ∈ behind, ¬c.utilization < child.utilization

theorem leastUtilized_cons (first c : Credential) (rest : List Credential) :
    leastUtilized first (c :: rest) =
      if c.utilization < first.utilization then leastUtilized c rest else leastUtilized first rest := by
  unfold leastUtilized
  rw [List.foldl_cons]
  split <;> rfl

theorem exists_least (first : Credential) (rest : List Credential) :
    ∃ before behind, first :: rest = before ++ leastUtilized first rest :: behind ∧
      Least before (leastUtilized first rest) behind ∧
        (before = [] ∨ (leastUtilized first rest).utilization < first.utilization) := by
  -- The last part carries the induction: a child that is put in front has to be higher than the one found behind it.
  induction rest generalizing first with
  | nil => exact ⟨[], [], rfl, ⟨nofun, nofun⟩, Or.inl rfl⟩
  | cons c rest ih =>
    rw [leastUtilized_cons]
    split
    · next hlow =>
      obtain ⟨before, behind, hsplit, hleast, hfront⟩ := ih c
      have hlower : (leastUtilized c rest).utilization < first.utilization := by
        rcases hfront with rfl | hlt
        · rw [← (List.cons.inj hsplit).1]
          exact hlow
        · exact Double.lt_of_le_of_lt (Double.le_of_lt hlt) hlow
      refine ⟨first :: before, behind, congrArg (first :: ·) hsplit, ⟨?_, hleast.behind⟩, Or.inr hlower⟩
      rintro d (_ | ⟨_, hd⟩)
      · exact fun hle => Double.not_lt_of_le hle hlower
      · exact hleast.before d hd
    · next hnot =>
      obtain ⟨before, behind, hsplit, hleast, hfront⟩ := ih first
      cases before with
      | nil =>
        obtain ⟨hfirst, hrest⟩ := List.cons.inj hsplit
        refine ⟨[], c :: rest, congrArg (· :: c :: rest) hfirst, ⟨nofun, ?_⟩, Or.inl rfl⟩
        rw [← hfirst] at hleast ⊢
        rintro d (_ | ⟨_, hd⟩)
        · exact hnot
        · exact hleast.behind d (hrest ▸ hd)
      | cons front before =>
        obtain ⟨rfl, hrest⟩ := List.cons.inj hsplit
        have hlower := hfront.resolve_left (List.cons_ne_nil _ _)
        refine ⟨first :: c :: before, behind, congrArg (first :: c :: ·) hrest, ⟨?_, hleast.behind⟩, Or.inr hlower⟩
        rintro d (_ | ⟨_, _ | ⟨_, hd⟩⟩)
        · exact hleast.before first List.mem_cons_self
        · exact fun hle => hnot (Double.lt_of_le_of_lt hle hlower)
        · exact hleast.before d (List.mem_cons_of_mem _ hd)

theorem leastUtilized_mem (first : Credential) (rest : List Credential) :
    leastUtilized first rest ∈ first :: rest := by
  obtain ⟨before, behind, hsplit, -⟩ := exists_least first rest
  rw [hsplit]
  exact List.mem_append_right before List.mem_cons_self

/-! ## Every choice -/

theorem topScored_mem (first : Credential) (rest : List Credential) (table : ScoreTable) :
    (topScored first (first :: rest) table).1 ∈ first :: rest := by
  unfold topScored
  split
  · next row _ =>
    cases hfind : (first :: rest).find? fun c => c.id = row.credentialId with
    | none => exact List.mem_cons_self
    | some c => exact List.mem_of_find?_eq_some hfind
  · exact List.mem_cons_self

theorem choose_mem (strategy : Strategy) (first : Credential) (rest : List Credential) (index : Nat)
    (table : ScoreTable) : (choose strategy first rest index table).1 ∈ first :: rest := by
  cases strategy with
  | optimalScore => exact topScored_mem first rest table
  | roundRobin =>
    change (first :: rest).getD index first ∈ first :: rest
    rw [List.getD_eq_getElem?_getD]
    cases hplace : (first :: rest)[index]? with
    | none => exact List.mem_cons_self
    | some c => exact List.mem_of_getElem? hplace
  | lowestUtilization => exact leastUtilized_mem first rest

/-! ## What a resolution holds -/

/-- How a resolution comes about that succeeds. -/
structure Settled (r : RoutingCredential) (t : Transaction) (u : User) (s : Guidance) (limits : GivenLimits)
    (g : Generator) (first : Credential) (rest : List Credential) (table : ScoreTable) (resolved : Resolved) :
    Prop where
  eligible : eligibleChildren r = first :: rest
  assessed : (limits.assessAll t u ((first :: rest).map Instrument.card)
    (turn r.strategy (first :: rest).length g).2).1 = .ok resolved.assessments
  scored : ScoreTable.ofInstruments ((first :: rest).map Instrument.card) t u s resolved.assessments none = .ok table
  rows : resolved.resolution.rows = table.rows
  child : resolved.resolution.child =
    (choose r.strategy first rest (turn r.strategy (first :: rest).length g).1 table).1

variable {r : RoutingCredential} {t : Transaction} {u : User} {s : Guidance} {limits : GivenLimits} {now : Value}
  {g : Generator} {resolved : Resolved}

theorem settle_eq_ok {first : Credential} {rest : List Credential} {index : Nat} {assessments : Keyed RiskAssessment}
    (h : settle r first rest index t u s now assessments = .ok resolved) :
    ∃ table, ScoreTable.ofInstruments ((first :: rest).map Instrument.card) t u s assessments none = .ok table ∧
      resolved.assessments = assessments ∧ resolved.resolution.rows = table.rows ∧
        resolved.resolution.child = (choose r.strategy first rest index table).1 := by
  unfold settle at h
  split at h
  · cases h
  · next table htable =>
    dsimp only at h
    split at h
    · cases h
    · cases h
      exact ⟨table, htable, rfl, rfl, rfl⟩

theorem exists_settled (h : (resolve r t u s limits now g).1 = .ok resolved) :
    ∃ first rest table, Settled r t u s limits g first rest table resolved := by
  unfold resolve at h
  split at h
  · cases h
  · next first rest heligible =>
    dsimp only at h
    split at h
    · cases h
    · next assessments g' hassessed =>
      obtain ⟨table, hscored, rfl, hrows, hchild⟩ := settle_eq_ok h
      exact ⟨first, rest, table, heligible, congrArg Prod.fst hassessed, hscored, hrows, hchild⟩

theorem resolve_child_mem (h : (resolve r t u s limits now g).1 = .ok resolved) :
    resolved.resolution.child ∈ eligibleChildren r := by
  obtain ⟨first, rest, table, hsettled⟩ := exists_settled h
  rw [hsettled.eligible, hsettled.child]
  exact choose_mem r.strategy first rest _ table

theorem Settled.optimal {first : Credential} {rest : List Credential} {table : ScoreTable}
    (h : Settled r t u s limits g first rest table resolved) (hstrategy : r.strategy = .optimalScore) :
    (∃ row, resolved.resolution.rows.find? (fun row => !row.excluded) = some row ∧
        resolved.resolution.child.id = row.credentialId) ∨
      (resolved.resolution.rows.find? fun row => !row.excluded) = none ∧ resolved.resolution.child = first := by
  have hranks := ScoreTable.ofInstruments_ranks h.scored
  have hchild := h.child
  rw [hstrategy] at hchild
  change _ = (topScored first (first :: rest) table).1 at hchild
  rw [h.rows, ← hranks.top]
  unfold topScored at hchild
  cases htop : table.top with
  | none =>
    rw [htop] at hchild
    exact Or.inr ⟨rfl, hchild⟩
  | some row =>
    rw [htop] at hchild
    rw [hranks.top] at htop
    obtain ⟨i, hi, hid, -⟩ := hranks.sound row (List.mem_of_find?_eq_some htop)
    obtain ⟨c, hc, rfl⟩ := List.mem_map.mp hi
    obtain ⟨d, hfind⟩ := Option.isSome_iff_exists.mp
      (List.find?_isSome (p := fun c => decide (c.id = row.credentialId)).mpr ⟨c, hc, decide_eq_true hid.symm⟩)
    dsimp only at hchild
    rw [hfind] at hchild
    refine Or.inl ⟨row, rfl, ?_⟩
    have hfound := List.find?_some hfind
    rw [hchild]
    exact of_decide_eq_true hfound

end Resolution

end WalletRouting
