import WalletRouting.Audit.Difference
import WalletRouting.Proofs.Keyed
import WalletRouting.Proofs.Number.Opposite
import WalletRouting.Proofs.Service.Record

/-! # Differences in both directions

A difference goes through the rows of the later record and looks the earlier scores up. What both records score is told
the same way in both directions, with the sign turned round. A credential that only the later record has is told against
zero, and one that only the earlier record has is not told at all.
-/
namespace WalletRouting
set_option autoImplicit false

/-- What a delta tells of its credential, whatever it is called. -/
def ScoreDelta.change (d : ScoreDelta) : String × Double × Double × Double :=
  (d.credentialId, d.previous, d.new, d.delta)

/-- The same told the other way. -/
def ScoreDelta.changeBack (d : ScoreDelta) : String × Double × Double × Double :=
  (d.credentialId, d.new, d.previous, -d.delta)

namespace Difference

open Double (place)

/-- Whether a rounded change is more than noise. -/
def IsTold (delta : Double) : Prop := 0.5 < delta ∨ delta < -0.5

/-- Deltas that tell the same changes as others, the other way. -/
def Mirror (deltas back : List ScoreDelta) : Prop :=
  (deltas.map ScoreDelta.changeBack).Perm (back.map ScoreDelta.change)

/-! ## Changes and their opposites -/

theorem isTold_neg {x : Double} : IsTold (-x) ↔ IsTold x := by
  have hlow : -x < -0.5 ↔ 0.5 < x := Double.neg_lt_neg
  have hhigh : 0.5 < -x ↔ x < -0.5 := by
    have h : - -0.5 < -x ↔ x < -0.5 := Double.neg_lt_neg
    rwa [Double.neg_neg] at h
  rw [IsTold, IsTold, hlow, hhigh, or_comm]

theorem not_isTold_of_zero {x : Double} (h : place x = place 0) : ¬IsTold x := by
  rw [IsTold, Double.lt_congr rfl h, Double.lt_congr h rfl]
  decide +kernel

/-- The rounded change in one direction is told exactly when that in the other is, and is then its opposite. -/
theorem isTold_swap (x y : Double) :
    (IsTold ((x - y).roundPlaces 2) ↔ IsTold ((y - x).roundPlaces 2)) ∧
      (IsTold ((x - y).roundPlaces 2) → (y - x).roundPlaces 2 = -(x - y).roundPlaces 2) := by
  rcases Double.sub_eq_neg_or_zero x y with hneg | ⟨hzero, hzero'⟩
  · have hround : (y - x).roundPlaces 2 = -(x - y).roundPlaces 2 := by rw [hneg, Double.roundPlaces_neg]
    exact ⟨by rw [hround, isTold_neg], fun _ => hround⟩
  · have hnot := not_isTold_of_zero (Double.place_roundPlaces_of_zero hzero (by norm_num : 2 ≤ 2 ^ 11))
    have hnot' := not_isTold_of_zero (Double.place_roundPlaces_of_zero hzero' (by norm_num : 2 ≤ 2 ^ 11))
    exact ⟨⟨fun h => absurd h hnot, fun h => absurd h hnot'⟩, fun h => absurd h hnot⟩

/-! ## The deltas of one direction -/

def idsOf (rows : List ScoreRow) : List String := rows.map fun row => row.credentialId

/-- What the rows of a later table tell against those of an earlier one. -/
def told (before after : List ScoreRow) : List ScoreDelta := after.filterMap (deltaOf (scoresOf before))

/-- What is told of credentials that both tables score. -/
def shared (before after : List ScoreRow) : List ScoreDelta :=
  (told before after).filter fun d => d.credentialId ∈ idsOf before

theorem between_eq_none_iff {previous current : AuditRecord} :
    between previous current = none ↔ previous.route = current.route := by
  unfold between
  split
  · next h => exact ⟨fun _ => h, fun _ => rfl⟩
  · next h => exact ⟨fun hnone => (nomatch hnone), fun hsame => absurd hsame h⟩

theorem deltas_of_between {previous current : AuditRecord} {d : Difference} (h : between previous current = some d) :
    d.deltas = told previous.rows current.rows := by
  unfold between at h
  split at h
  · cases h
  · cases h
    split <;> rfl

variable {before after : List ScoreRow}

theorem get?_scoresOf (hdistinct : (idsOf before).Nodup) {row : ScoreRow} (h : row ∈ before) :
    (scoresOf before).get? row.credentialId = some row.final := by
  have hkeys : (Keyed.keys (before.map fun row => (row.credentialId, row.final))).Nodup := by
    rwa [Keyed.keys, List.map_map]
  rw [scoresOf, Keyed.ofPairs_of_nodup hkeys]
  exact Keyed.get?_of_mem hkeys (List.mem_map_of_mem h)

theorem get?_scoresOf_of_not_mem {id : String} (h : id ∉ idsOf before) : (scoresOf before).get? id = none := by
  rw [Keyed.get?_eq_none_iff, scoresOf, Keyed.mem_keys_ofPairs, List.map_map]
  exact h

theorem mem_told_iff {d : ScoreDelta} :
    d ∈ told before after ↔ ∃ row ∈ after,
      let previous := ((scoresOf before).get? row.credentialId).getD 0.0
      let delta := (row.final - previous).roundPlaces 2
      IsTold delta ∧ d = ⟨row.credentialId, row.credentialName, previous, row.final, delta⟩ := by
  rw [told, List.mem_filterMap]
  refine exists_congr fun row => and_congr_right fun _ => ?_
  unfold deltaOf
  dsimp only
  split
  · next h => exact ⟨fun hd => ⟨h, (Option.some.inj hd).symm⟩, fun hd => by rw [hd.2]⟩
  · next h => exact ⟨fun hd => (nomatch hd), fun hd => absurd hd.1 h⟩

theorem mem_idsOf_of_told {d : ScoreDelta} (h : d ∈ told before after) : d.credentialId ∈ idsOf after := by
  obtain ⟨row, hrow, -, rfl⟩ := mem_told_iff.mp h
  exact List.mem_map_of_mem hrow

theorem nodup_told (hdistinct : (idsOf after).Nodup) :
    ((told before after).map fun d => d.credentialId).Nodup := by
  refine hdistinct.sublist ?_
  unfold told idsOf
  clear hdistinct
  induction after with
  | nil => exact .slnil
  | cons row rest ih =>
    rw [List.filterMap_cons]
    split
    · exact ih.cons _
    · next d hd =>
      have hid : d.credentialId = row.credentialId := by
        unfold deltaOf at hd
        dsimp only at hd
        split at hd
        · cases hd
          rfl
        · cases hd
      rw [List.map_cons, List.map_cons, hid]
      exact ih.cons_cons _

theorem previous_of_unscored {d : ScoreDelta} (h : d ∈ told before after) (hnew : d.credentialId ∉ idsOf before) :
    d.previous = 0.0 := by
  obtain ⟨row, -, -, rfl⟩ := mem_told_iff.mp h
  exact congrArg (Option.getD · 0.0) (get?_scoresOf_of_not_mem hnew)

theorem told_scored_iff :
    (∀ d ∈ told before after, d.credentialId ∈ idsOf before) ↔
      ∀ row ∈ after, row.credentialId ∉ idsOf before → ¬IsTold (row.final.roundPlaces 2) := by
  have hagainst {row : ScoreRow} (hnew : row.credentialId ∉ idsOf before) :
      row.final - ((scoresOf before).get? row.credentialId).getD 0.0 = row.final := by
    rw [get?_scoresOf_of_not_mem hnew]
    exact Double.sub_zero row.final
  constructor
  · intro h row hrow hnew htold
    rw [← hagainst hnew] at htold
    exact hnew (h _ (mem_told_iff.mpr ⟨row, hrow, htold, rfl⟩))
  · intro h d hd
    obtain ⟨row, hrow, htold, rfl⟩ := mem_told_iff.mp hd
    by_contra hnew
    rw [hagainst hnew] at htold
    exact h row hrow hnew htold

/-! ## Both directions -/

theorem mem_shared_iff (hdistinct : (idsOf before).Nodup) {d : ScoreDelta} :
    d ∈ shared before after ↔ ∃ p ∈ before, ∃ q ∈ after, p.credentialId = q.credentialId ∧
      IsTold ((q.final - p.final).roundPlaces 2) ∧
        d = ⟨q.credentialId, q.credentialName, p.final, q.final, (q.final - p.final).roundPlaces 2⟩ := by
  rw [shared, List.mem_filter, mem_told_iff, decide_eq_true_eq]
  constructor
  · rintro ⟨⟨q, hq, htold, rfl⟩, hmem⟩
    obtain ⟨p, hp, (hid : p.credentialId = q.credentialId)⟩ := List.mem_map.mp hmem
    have hget : (scoresOf before).get? q.credentialId = some p.final := hid ▸ get?_scoresOf hdistinct hp
    rw [hget] at htold ⊢
    exact ⟨p, hp, q, hq, hid, htold, rfl⟩
  · rintro ⟨p, hp, q, hq, hid, htold, rfl⟩
    have hget : (scoresOf before).get? q.credentialId = some p.final := hid ▸ get?_scoresOf hdistinct hp
    refine ⟨⟨q, hq, ?_⟩, ?_⟩
    · rw [hget]
      exact ⟨htold, rfl⟩
    · exact hid ▸ List.mem_map_of_mem hp

theorem shared_mirror (hbefore : (idsOf before).Nodup) (hafter : (idsOf after).Nodup) :
    Mirror (shared before after) (shared after before) := by
  have hnodup {l l' : List ScoreRow} (h : (idsOf l').Nodup) : ((shared l l').map fun d => d.credentialId).Nodup :=
    (nodup_told h).sublist (List.filter_sublist.map _)
  have hback : ((shared before after).map ScoreDelta.changeBack).Nodup := by
    refine .of_map Prod.fst ?_
    rw [List.map_map]
    exact hnodup hafter
  have hforth : ((shared after before).map ScoreDelta.change).Nodup := by
    refine .of_map Prod.fst ?_
    rw [List.map_map]
    exact hnodup hbefore
  rw [Mirror, List.perm_ext_iff_of_nodup hback hforth]
  intro c
  rw [List.mem_map, List.mem_map]
  constructor
  · rintro ⟨d, hd, rfl⟩
    obtain ⟨p, hp, q, hq, hid, htold, rfl⟩ := (mem_shared_iff hbefore).mp hd
    have hswap := isTold_swap q.final p.final
    refine ⟨_, (mem_shared_iff hafter).mpr ⟨q, hq, p, hp, hid.symm, hswap.1.mp htold, rfl⟩, ?_⟩
    rw [ScoreDelta.change, ScoreDelta.changeBack, hswap.2 htold, hid]
  · rintro ⟨d, hd, rfl⟩
    obtain ⟨q, hq, p, hp, hid, htold, rfl⟩ := (mem_shared_iff hafter).mp hd
    have hswap := isTold_swap q.final p.final
    have htold' := hswap.1.mpr htold
    refine ⟨_, (mem_shared_iff hbefore).mpr ⟨p, hp, q, hq, hid.symm, htold', rfl⟩, ?_⟩
    rw [ScoreDelta.change, ScoreDelta.changeBack, hswap.2 htold', hid]

theorem told_mirror_iff (hbefore : (idsOf before).Nodup) (hafter : (idsOf after).Nodup) :
    Mirror (told before after) (told after before) ↔
      (∀ d ∈ told before after, d.credentialId ∈ idsOf before) ∧
        ∀ d ∈ told after before, d.credentialId ∈ idsOf after := by
  constructor
  · intro hmirror
    refine ⟨?_, ?_⟩
    · intro d hd
      obtain ⟨d', hd', heq⟩ := List.mem_map.mp (hmirror.mem_iff.mp (List.mem_map_of_mem hd))
      have hid : d'.credentialId = d.credentialId := congrArg Prod.fst heq
      exact hid ▸ mem_idsOf_of_told hd'
    · intro d hd
      obtain ⟨d', hd', heq⟩ := List.mem_map.mp (hmirror.mem_iff.mpr (List.mem_map_of_mem hd))
      have hid : d'.credentialId = d.credentialId := congrArg Prod.fst heq
      exact hid ▸ mem_idsOf_of_told hd'
  · rintro ⟨hforth, hback⟩
    have hmirror := shared_mirror hbefore hafter
    rwa [shared, shared, List.filter_eq_self.mpr fun d hd => decide_eq_true (hforth d hd),
      List.filter_eq_self.mpr fun d hd => decide_eq_true (hback d hd)] at hmirror

/-- How the differences of two records in both directions answer each other. -/
structure Answer (previous current : AuditRecord) : Prop where
  silent : between previous current = none ↔ previous.route = current.route
  silentBack : between current previous = none ↔ previous.route = current.route
  shared : ∀ d back, between previous current = some d → between current previous = some back →
    Mirror (d.deltas.filter fun δ => δ.credentialId ∈ idsOf previous.rows)
      (back.deltas.filter fun δ => δ.credentialId ∈ idsOf current.rows)
  unscored : ∀ d back, between previous current = some d → between current previous = some back →
    ∀ δ ∈ d.deltas, δ.credentialId ∉ idsOf previous.rows →
      δ.previous = 0.0 ∧ ∀ δ' ∈ back.deltas, δ'.credentialId ≠ δ.credentialId
  mirrored_iff : ∀ d back, between previous current = some d → between current previous = some back →
    (Mirror d.deltas back.deltas ↔
      (∀ row ∈ current.rows, row.credentialId ∉ idsOf previous.rows → ¬IsTold (row.final.roundPlaces 2)) ∧
        ∀ row ∈ previous.rows, row.credentialId ∉ idsOf current.rows → ¬IsTold (row.final.roundPlaces 2))

/-- Records of distinct credentials answer each other on what both of them score; they do so altogether exactly when the
scores that only one of them has are noise. -/
theorem between_answers {previous current : AuditRecord} (hprevious : (idsOf previous.rows).Nodup)
    (hcurrent : (idsOf current.rows).Nodup) : Answer previous current where
  silent := between_eq_none_iff
  silentBack := between_eq_none_iff.trans eq_comm
  shared d back hd hback := by
    rw [deltas_of_between hd, deltas_of_between hback]
    exact shared_mirror hprevious hcurrent
  unscored d back hd hback δ hδ hnew := by
    rw [deltas_of_between hd] at hδ
    refine ⟨previous_of_unscored hδ hnew, ?_⟩
    intro δ' hδ' hid
    rw [deltas_of_between hback] at hδ'
    exact hnew (hid ▸ mem_idsOf_of_told hδ')
  mirrored_iff d back hd hback := by
    rw [deltas_of_between hd, deltas_of_between hback, told_mirror_iff hprevious hcurrent, told_scored_iff,
      told_scored_iff]

end Difference

namespace Sample

def row (id : String) (final : Double) : ScoreRow :=
  ⟨id, id, ⟨{}, {}, {}, {}⟩, [], [], 0, 0, final, final, 1, false, none, none⟩

/-- A record of a run that picked one of these rows. -/
def recordOf (route : String) (rows : List ScoreRow) : AuditRecord :=
  { resolvedRecord [] with route := route, rows := rows }

end Sample

namespace Difference

/-- One score went up and another hardly moved. -/
theorem between_answers_of_two :
    let previous := Sample.recordOf "a" [Sample.row "a" 60.0, Sample.row "b" 50.0]
    let current := Sample.recordOf "b" [Sample.row "b" 90.0, Sample.row "a" 60.25]
    (idsOf previous.rows).Nodup ∧ (idsOf current.rows).Nodup ∧ Answer previous current := by
  intro previous current
  have hprevious : (idsOf previous.rows).Nodup := by decide
  have hcurrent : (idsOf current.rows).Nodup := by decide
  exact ⟨hprevious, hcurrent, between_answers hprevious hcurrent⟩

/-- A credential that was scored and then no longer is told in one direction only. -/
theorem misses_credential_no_longer_scored :
    let previous := Sample.recordOf "card_a" [Sample.row "card_a" 80.0, Sample.row "card_b" 60.0]
    let current := Sample.recordOf "card_b" [Sample.row "card_b" 60.0]
    (idsOf previous.rows).Nodup ∧ (idsOf current.rows).Nodup ∧ ∃ d back, between previous current = some d ∧
      between current previous = some back ∧ d.deltas.map ScoreDelta.credentialId = [] ∧
        back.deltas.map ScoreDelta.credentialId = ["card_a"] ∧ ¬Mirror d.deltas back.deltas := by
  intro previous current
  have hforth : (between previous current).map (fun d => d.deltas.map ScoreDelta.credentialId) = some [] := by
    decide +kernel
  have hback : (between current previous).map (fun d => d.deltas.map ScoreDelta.credentialId) = some ["card_a"] := by
    decide +kernel
  obtain ⟨d, hd, hids⟩ := Option.map_eq_some_iff.mp hforth
  obtain ⟨back, hbetween, hids'⟩ := Option.map_eq_some_iff.mp hback
  refine ⟨by decide, by decide, d, back, hd, hbetween, hids, hids', ?_⟩
  have hnone : d.deltas.length = 0 := by simpa using congrArg List.length hids
  have hone : back.deltas.length = 1 := by simpa using congrArg List.length hids'
  intro hmirror
  have hlength := hmirror.length_eq
  rw [List.length_map, List.length_map, hnone, hone] at hlength
  cases hlength

end Difference

end WalletRouting
