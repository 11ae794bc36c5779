import WalletRouting.Proofs.Policy.Validity
import WalletRouting.Proofs.Registry.Changes

/-! # What edits do to rules

An edit that succeeds has found its version and computed the rules it is to hold; there is one lemma for each edit that
says which. From these, rules that are valid and of distinct ids stay so.
-/
namespace WalletRouting
set_option autoImplicit false

/-- Rules that are all valid, no two of one id. -/
structure Rule.WellFormed (rules : List Rule) : Prop where
  distinct : (rules.map Rule.id).Nodup
  valid : ∀ r ∈ rules, r.isValid = true

namespace Edit

theorem holds_eq_false_iff {id : String} {rules : List Rule} :
    holds id rules = false ↔ id ∉ rules.map Rule.id := by
  simp only [holds, List.any_eq_false, decide_eq_true_eq, List.mem_map, not_exists, not_and]

theorem add_ok {r : Rule} {p : PolicyVersion} {rules : List Rule} (h : add r p = .ok rules) :
    (r.id ∉ p.rules.map Rule.id) ∧ rules = p.rules ++ [r] := by
  unfold add at h
  split at h
  · cases h
  · next hfresh =>
    cases h
    exact ⟨holds_eq_false_iff.mp (Bool.eq_false_iff.mpr hfresh), rfl⟩

theorem remove_ok {id : String} {p : PolicyVersion} {rules : List Rule} (h : remove id p = .ok rules) :
    rules = p.rules.eraseP fun r => r.id = id := by
  unfold remove at h
  split at h
  · cases h
    rfl
  · cases h

theorem revise_ok {updates : Keyed Value} {r revised : Rule} (h : revise updates r = .ok revised) :
    Rule.read (.object (overlay updates r)) = .ok revised ∧ revised.isValid = true := by
  unfold revise at h
  split at h
  · cases h
  · next hread =>
    obtain ⟨_, hvalid, h⟩ := bind_eq_ok h
    cases h
    exact ⟨hread, requireValid_ok hvalid⟩

theorem find_ok {id : String} {p : PolicyVersion} {r : Rule} (h : find id p = .ok r) :
    p.rules.find? (fun r => r.id = id) = some r ∧ .tooDeep ∉ r.writeErrors := by
  unfold find at h
  split at h
  · cases h
  · next hfind =>
    split at h
    · cases h
    · next hroom =>
      cases h
      exact ⟨hfind, fun hdeep => hroom (List.contains_iff_mem.mpr hdeep)⟩

theorem update_ok {id : String} {updates : Keyed Value} {p : PolicyVersion} {rules : List Rule}
    (h : update id updates p = .ok rules) :
    ∃ old revised, find id p = .ok old ∧ revise updates old = .ok revised ∧
      (revised.id = id ∨ revised.id ∉ p.rules.map Rule.id) ∧ rules = replaceRule id revised p.rules := by
  obtain ⟨old, hfind, h⟩ := bind_eq_ok h
  obtain ⟨revised, hrevised, h⟩ := bind_eq_ok h
  split at h
  · cases h
  · next hfree =>
    cases h
    refine ⟨old, revised, hfind, hrevised, ?_, rfl⟩
    by_cases hid : revised.id = id
    · exact Or.inl hid
    · exact Or.inr (holds_eq_false_iff.mp (Bool.eq_false_iff.mpr fun hheld => hfree ⟨hid, hheld⟩))

theorem replaceRule_append {id : String} {revised old : Rule} {before behind : List Rule}
    (hbefore : ∀ r ∈ before, r.id ≠ id) (hid : old.id = id) :
    replaceRule id revised (before ++ old :: behind) = before ++ revised :: behind := by
  induction before with
  | nil => simp [replaceRule, hid]
  | cons first before ih =>
    rw [List.forall_mem_cons] at hbefore
    simp [replaceRule, hbefore.1, ih hbefore.2]

theorem replaceRule_of_find? {id : String} {old : Rule} {rules : List Rule}
    (h : rules.find? (fun r => r.id = id) = some old) (revised : Rule) :
    ∃ before behind, rules = before ++ old :: behind ∧ old.id = id ∧ (∀ r ∈ before, r.id ≠ id) ∧
      replaceRule id revised rules = before ++ revised :: behind := by
  obtain ⟨hheld, before, behind, rfl, hothers⟩ := List.find?_eq_some_iff_append.mp h
  have hid : old.id = id := of_decide_eq_true hheld
  have hbefore : ∀ r ∈ before, r.id ≠ id := fun r hr => by simpa using hothers r hr
  exact ⟨before, behind, rfl, hid, hbefore, replaceRule_append hbefore hid⟩

theorem mem_replaceRule {id : String} {revised r : Rule} {rules : List Rule} (h : r ∈ replaceRule id revised rules) :
    r = revised ∨ r ∈ rules := by
  induction rules with
  | nil => cases h
  | cons first rest ih =>
    unfold replaceRule at h
    split at h
    · rcases List.mem_cons.mp h with rfl | h
      · exact Or.inl rfl
      · exact Or.inr (List.mem_cons_of_mem _ h)
    · rcases List.mem_cons.mp h with rfl | h
      · exact Or.inr List.mem_cons_self
      · exact (ih h).imp_right (List.mem_cons_of_mem _)

theorem nodup_replaceRule {id : String} {revised : Rule} {rules : List Rule}
    (hdistinct : (rules.map Rule.id).Nodup)
    (hid : revised.id = id ∨ revised.id ∉ rules.map Rule.id) :
    ((replaceRule id revised rules).map Rule.id).Nodup := by
  induction rules with
  | nil => exact List.nodup_nil
  | cons first rest ih =>
    obtain ⟨hfirst, hrest⟩ := List.nodup_cons.mp hdistinct
    have hid' : revised.id = id ∨ revised.id ∉ rest.map Rule.id :=
      hid.imp_right fun h hmem => h (List.mem_cons_of_mem _ hmem)
    unfold replaceRule
    split
    · next hname =>
      refine List.nodup_cons.mpr ⟨?_, hrest⟩
      rcases hid' with heq | hfresh
      · rw [heq, ← hname]
        exact hfirst
      · exact hfresh
    · next hname =>
      refine List.nodup_cons.mpr ⟨?_, ih hrest hid'⟩
      intro hmem
      obtain ⟨r, hr, heq⟩ := List.mem_map.mp hmem
      rcases mem_replaceRule hr with rfl | hr
      · rcases hid with hid | hfresh
        · exact hname (heq.symm.trans hid)
        · exact hfresh (heq ▸ List.mem_cons_self)
      · exact hfirst (List.mem_map.mpr ⟨r, hr, heq⟩)

theorem nodup_firstOccurrences (ids : List String) : (firstOccurrences ids).Nodup := by
  induction ids with
  | nil => exact List.nodup_nil
  | cons id rest ih =>
    refine List.nodup_cons.mpr ⟨?_, ih.filter _⟩
    simp

theorem mem_firstOccurrences {id : String} {ids : List String} (h : id ∈ firstOccurrences ids) : id ∈ ids := by
  induction ids with
  | nil => exact h
  | cons first rest ih =>
    rcases List.mem_cons.mp h with rfl | h
    · exact List.mem_cons_self
    · exact List.mem_cons_of_mem _ (ih (List.mem_filter.mp h).1)

theorem lastOf?_eq_some {rules : List Rule} {id : String} {r : Rule} (h : lastOf? rules id = some r) :
    r ∈ rules ∧ r.id = id := by
  have hmem := List.mem_filter.mp (List.mem_of_getLast? h)
  exact ⟨hmem.1, of_decide_eq_true hmem.2⟩

theorem nodup_filterMap_lastOf? {rules : List Rule} {ids : List String} (h : ids.Nodup) :
    ((ids.filterMap (lastOf? rules)).map Rule.id).Nodup := by
  induction ids with
  | nil => exact List.nodup_nil
  | cons id rest ih =>
    obtain ⟨hfresh, hrest⟩ := List.nodup_cons.mp h
    cases hfound : lastOf? rules id with
    | none =>
      rw [List.filterMap_cons_none hfound]
      exact ih hrest
    | some r =>
      rw [List.filterMap_cons_some hfound]
      refine List.nodup_cons.mpr ⟨?_, ih hrest⟩
      intro hmem
      obtain ⟨r', hr', heq⟩ := List.mem_map.mp hmem
      obtain ⟨id', hid', hfound'⟩ := List.mem_filterMap.mp hr'
      have hsame : id' = id := (lastOf?_eq_some hfound').2.symm.trans (heq.trans (lastOf?_eq_some hfound).2)
      exact hfresh (hsame ▸ hid')

theorem ids_renumberFrom (n : Int) (rules : List Rule) :
    ((renumberFrom n rules).map Rule.id) = rules.map Rule.id := by
  induction rules generalizing n with
  | nil => rfl
  | cons first rest ih => exact congrArg (first.id :: ·) (ih (n + 1))

theorem mem_renumberFrom {n : Int} {r : Rule} {rules : List Rule} (h : r ∈ renumberFrom n rules) :
    ∃ r' ∈ rules, ∃ k, r = { r' with priority := k } := by
  induction rules generalizing n with
  | nil => cases h
  | cons first rest ih =>
    rcases List.mem_cons.mp h with rfl | h
    · exact ⟨first, List.mem_cons_self, n, rfl⟩
    · obtain ⟨r', hr', hk⟩ := ih h
      exact ⟨r', List.mem_cons_of_mem _ hr', hk⟩

theorem mem_reordered {ids : List String} {r : Rule} {rules : List Rule} (h : r ∈ reordered ids rules) :
    ∃ r' ∈ rules, ∃ k, r = { r' with priority := k } := by
  obtain ⟨r', hr', hk⟩ := mem_renumberFrom h
  refine ⟨r', ?_, hk⟩
  rcases List.mem_append.mp hr' with hlisted | hother
  · obtain ⟨id, -, hfound⟩ := List.mem_filterMap.mp hlisted
    exact (lastOf?_eq_some hfound).1
  · exact (List.mem_filter.mp hother).1

theorem nodup_reordered {rules : List Rule} (ids : List String) (hdistinct : (rules.map Rule.id).Nodup) :
    ((reordered ids rules).map Rule.id).Nodup := by
  rw [reordered, ids_renumberFrom, List.map_append, List.nodup_append]
  refine ⟨nodup_filterMap_lastOf? (nodup_firstOccurrences ids),
    hdistinct.sublist (List.filter_sublist.map _), ?_⟩
  rintro id hlisted _ hother rfl
  obtain ⟨r, hr, rfl⟩ := List.mem_map.mp hlisted
  obtain ⟨id, hid, hfound⟩ := List.mem_filterMap.mp hr
  obtain ⟨r', hr', heq⟩ := List.mem_map.mp hother
  have hunlisted := (List.mem_filter.mp hr').2
  rw [heq, (lastOf?_eq_some hfound).2] at hunlisted
  simp [mem_firstOccurrences hid] at hunlisted

theorem Offered.wellFormed {e : Edit} {p : PolicyVersion} {rules : List Rule} (h : Offered e)
    (hp : Rule.WellFormed p.rules) (hrules : e p = .ok rules) : Rule.WellFormed rules := by
  cases h with
  | @add r hvalid =>
    obtain ⟨hfresh, rfl⟩ := add_ok hrules
    constructor
    · rw [List.map_append, List.nodup_append]
      refine ⟨hp.distinct, by simp, ?_⟩
      rintro id hid _ hnew rfl
      rw [List.mem_singleton.mp hnew] at hid
      exact hfresh hid
    · intro r' hr'
      rcases List.mem_append.mp hr' with hr' | hr'
      · exact hp.valid r' hr'
      · exact List.mem_singleton.mp hr' ▸ hvalid
  | update id updates =>
    obtain ⟨old, revised, -, hrevised, hid, rfl⟩ := update_ok hrules
    refine ⟨nodup_replaceRule hp.distinct hid, ?_⟩
    intro r hr
    rcases mem_replaceRule hr with rfl | hr
    · exact (revise_ok hrevised).2
    · exact hp.valid r hr
  | remove id =>
    obtain rfl := remove_ok hrules
    exact ⟨hp.distinct.sublist (List.eraseP_sublist.map _), fun r hr => hp.valid r (List.mem_of_mem_eraseP hr)⟩
  | reorder ids =>
    obtain rfl : reordered ids p.rules = rules := Except.ok.inj hrules
    refine ⟨nodup_reordered ids hp.distinct, ?_⟩
    intro r hr
    obtain ⟨r', hr', _, rfl⟩ := mem_reordered hr
    exact hp.valid r' hr'

end Edit

end WalletRouting
