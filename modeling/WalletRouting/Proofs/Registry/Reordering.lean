import Mathlib.Data.List.Nodup
import WalletRouting.Proofs.Policy.Active
import WalletRouting.Proofs.Registry.Editing
import WalletRouting.Proofs.Run.Independence
import WalletRouting.Proofs.Run.Selection

/-! # What reordering rules changes

Reordering puts the rules that are listed in front, by where their ids first occur, and leaves the others in their order.
Then it counts: a rule has another priority afterwards and nothing else, and the rules that are enabled take part in the
order in which they stand. Rules that are arranged like this stay so.
-/
namespace WalletRouting
set_option autoImplicit false

/-- The rule but for its priority. -/
def Rule.unnumbered (r : Rule) : Rule := { r with priority := 0 }

theorem Ordered.sort_of_pairwise {α : Type} {le : α → α → Bool} {l : List α} (h : l.Pairwise fun a b => le a b = true) :
    sort le l = l := by
  induction l with
  | nil => rfl
  | cons a rest ih =>
    obtain ⟨hfirst, hrest⟩ := List.pairwise_cons.mp h
    rw [sort, ih hrest, insert_of_forall hfirst]

namespace Edit

/-! ## Counting -/

theorem renumberFrom_append (n : Int) (front back : List Rule) :
    renumberFrom n (front ++ back) = renumberFrom n front ++ renumberFrom (n + front.length) back := by
  induction front generalizing n with
  | nil => simp [renumberFrom]
  | cons r rest ih =>
    have hcount : n + 1 + (rest.length : Int) = n + ((r :: rest).length : Nat) := by
      rw [List.length_cons]
      omega
    rw [List.cons_append, renumberFrom, renumberFrom, ih, hcount, List.cons_append]

theorem renumberFrom_renumberFrom (n : Int) (rules : List Rule) :
    renumberFrom n (renumberFrom n rules) = renumberFrom n rules := by
  induction rules generalizing n with
  | nil => rfl
  | cons r rest ih => rw [renumberFrom, renumberFrom, ih]

theorem map_unnumbered_renumberFrom (n : Int) (rules : List Rule) :
    (renumberFrom n rules).map Rule.unnumbered = rules.map Rule.unnumbered := by
  induction rules generalizing n with
  | nil => rfl
  | cons r rest ih => exact congrArg (r.unnumbered :: ·) (ih (n + 1))

theorem priority_renumberFrom (n : Int) (rules : List Rule) (k : Nat) :
    (renumberFrom n rules)[k]?.map Rule.priority = rules[k]?.map fun _ => n + k := by
  induction rules generalizing n k with
  | nil => rfl
  | cons r rest ih =>
    cases k with
    | zero => simp [renumberFrom]
    | succ k =>
      rw [renumberFrom, List.getElem?_cons_succ, List.getElem?_cons_succ, ih]
      congr 1
      funext _
      omega

theorem le_priority_of_mem_renumberFrom {n : Int} {rules : List Rule} {r : Rule} (h : r ∈ renumberFrom n rules) :
    n ≤ r.priority := by
  induction rules generalizing n with
  | nil => cases h
  | cons first rest ih =>
    rcases List.mem_cons.mp h with rfl | h
    · exact Int.le_refl n
    · have hleast := ih h
      omega

theorem renumberFrom_pairwise (n : Int) (rules : List Rule) :
    (renumberFrom n rules).Pairwise fun a b => a.priority < b.priority := by
  induction rules generalizing n with
  | nil => exact List.Pairwise.nil
  | cons r rest ih =>
    refine List.pairwise_cons.mpr ⟨?_, ih (n + 1)⟩
    intro b hb
    exact Int.lt_of_add_one_le (le_priority_of_mem_renumberFrom hb)

/-! ## Listing -/

def listed (ids : List String) (rules : List Rule) : List Rule := (firstOccurrences ids).filterMap (lastOf? rules)

def unlisted (ids : List String) (rules : List Rule) : List Rule := rules.filter fun r => !(ids.contains r.id)

theorem reordered_eq (ids : List String) (rules : List Rule) :
    reordered ids rules = renumberFrom 1 (listed ids rules ++ unlisted ids rules) := rfl

/-- Rules that are listed, by where their ids first occur, and rules that are not. -/
structure Arranged (ids : List String) (front back : List Rule) : Prop where
  listed : ∀ r ∈ front, r.id ∈ ids
  ascending : front.Pairwise fun a b => ids.idxOf a.id < ids.idxOf b.id
  unlisted : ∀ r ∈ back, r.id ∉ ids

variable {ids : List String} {rules front back : List Rule} {r : Rule}

theorem firstOccurrences_pairwise (ids : List String) :
    (firstOccurrences ids).Pairwise fun a b => ids.idxOf a < ids.idxOf b := by
  induction ids with
  | nil => exact List.Pairwise.nil
  | cons id rest ih =>
    have hother {a : String} (ha : a ∈ (firstOccurrences rest).filter (· ≠ id)) :
        (id :: rest).idxOf a = rest.idxOf a + 1 :=
      List.idxOf_cons_ne rest (Ne.symm (of_decide_eq_true (List.mem_filter.mp ha).2))
    refine List.pairwise_cons.mpr ⟨?_, ?_⟩
    · intro b hb
      rw [hother hb, List.idxOf_cons_self]
      exact Nat.succ_pos _
    · refine (ih.filter _).imp_of_mem ?_
      intro a b ha hb hlt
      rw [hother ha, hother hb]
      exact Nat.succ_lt_succ hlt

theorem mem_firstOccurrences_iff {id : String} : id ∈ firstOccurrences ids ↔ id ∈ ids := by
  refine ⟨mem_firstOccurrences, ?_⟩
  intro h
  induction ids with
  | nil => exact h
  | cons first rest ih =>
    by_cases hfirst : id = first
    · rw [hfirst]
      exact List.mem_cons_self
    · have hrest := (List.mem_cons.mp h).resolve_left hfirst
      exact List.mem_cons_of_mem _ (List.mem_filter.mpr ⟨ih hrest, decide_eq_true hfirst⟩)

theorem lastOf?_of_mem (hdistinct : (rules.map Rule.id).Nodup) (hr : r ∈ rules) : lastOf? rules r.id = some r := by
  have hmem : r ∈ rules.filter fun x => x.id = r.id := List.mem_filter.mpr ⟨hr, decide_eq_true rfl⟩
  have hsome : lastOf? rules r.id = some ((rules.filter fun x => x.id = r.id).getLast (List.ne_nil_of_mem hmem)) :=
    List.getLast?_eq_some_getLast _
  obtain ⟨hheld, hid⟩ := lastOf?_eq_some hsome
  rw [hsome, List.inj_on_of_nodup_map hdistinct hheld hr hid]

theorem mem_listed (hdistinct : (rules.map Rule.id).Nodup) : r ∈ listed ids rules ↔ r ∈ rules ∧ r.id ∈ ids := by
  rw [listed, List.mem_filterMap]
  constructor
  · rintro ⟨id, hid, hfound⟩
    obtain ⟨hr, rfl⟩ := lastOf?_eq_some hfound
    exact ⟨hr, mem_firstOccurrences hid⟩
  · rintro ⟨hr, hid⟩
    exact ⟨r.id, mem_firstOccurrences_iff.mpr hid, lastOf?_of_mem hdistinct hr⟩

theorem mem_unlisted : r ∈ unlisted ids rules ↔ r ∈ rules ∧ r.id ∉ ids := by
  simp [unlisted]

theorem arranged_of_distinct (ids : List String) (hdistinct : (rules.map Rule.id).Nodup) :
    Arranged ids (listed ids rules) (unlisted ids rules) where
  listed r hr := ((mem_listed hdistinct).mp hr).2
  ascending := by
    refine List.pairwise_filterMap.mpr ((firstOccurrences_pairwise ids).imp ?_)
    intro id id' hlt a ha b hb
    rw [(lastOf?_eq_some ha).2, (lastOf?_eq_some hb).2]
    exact hlt
  unlisted r hr := (mem_unlisted.mp hr).2

theorem Arranged.renumberFrom (h : Arranged ids front back) (n k : Int) :
    Arranged ids (renumberFrom n front) (renumberFrom k back) where
  listed r hr := by
    obtain ⟨r', hr', _, rfl⟩ := mem_renumberFrom hr
    exact h.listed r' hr'
  ascending := by
    have hascending := h.ascending
    rw [← List.pairwise_map (f := Rule.id) (R := fun a b => ids.idxOf a < ids.idxOf b)] at hascending ⊢
    rwa [ids_renumberFrom]
  unlisted r hr := by
    obtain ⟨r', hr', _, rfl⟩ := mem_renumberFrom hr
    exact h.unlisted r' hr'

/-- Rules that are arranged already are listed as they stand: there is one order by where ids first occur. -/
theorem Arranged.listed_eq (h : Arranged ids front back) (hdistinct : ((front ++ back).map Rule.id).Nodup) :
    Edit.listed ids (front ++ back) = front := by
  have hfront : (front.map Rule.id).Nodup := by
    rw [List.map_append] at hdistinct
    exact hdistinct.of_append_left
  have hlisted : ((Edit.listed ids (front ++ back)).map Rule.id).Nodup := nodup_filterMap_lastOf? (nodup_firstOccurrences ids)
  -- Both hold the same rules, and both ascend by first occurrence.
  have hsame : (Edit.listed ids (front ++ back)).Perm front := by
    refine (List.perm_ext_iff_of_nodup hlisted.of_map hfront.of_map).mpr ?_
    intro r
    rw [mem_listed hdistinct, List.mem_append]
    constructor
    · rintro ⟨hr | hr, hid⟩
      · exact hr
      · exact absurd hid (h.unlisted r hr)
    · intro hr
      exact ⟨Or.inl hr, h.listed r hr⟩
  refine hsame.eq_of_pairwise ?_ (arranged_of_distinct ids hdistinct).ascending h.ascending
  intro a b _ _ hab hba
  omega

theorem Arranged.unlisted_eq (h : Arranged ids front back) : Edit.unlisted ids (front ++ back) = back := by
  have hfront : front.filter (fun r => !(ids.contains r.id)) = [] := by
    rw [List.filter_eq_nil_iff]
    intro r hr
    simp [h.listed r hr]
  have hback : back.filter (fun r => !(ids.contains r.id)) = back := by
    rw [List.filter_eq_self]
    intro r hr
    simp [h.unlisted r hr]
  rw [Edit.unlisted, List.filter_append, hfront, hback, List.nil_append]

theorem listed_unlisted_perm (ids : List String) (hdistinct : (rules.map Rule.id).Nodup) :
    (listed ids rules ++ unlisted ids rules).Perm rules := by
  have hids := nodup_reordered ids hdistinct
  rw [reordered_eq, ids_renumberFrom] at hids
  refine (List.perm_ext_iff_of_nodup hids.of_map hdistinct.of_map).mpr ?_
  intro r
  rw [List.mem_append, mem_listed hdistinct, mem_unlisted, ← and_or_left, and_iff_left (Classical.em _)]

theorem reordered_reordered (ids : List String) (hdistinct : (rules.map Rule.id).Nodup) :
    reordered ids (reordered ids rules) = reordered ids rules := by
  have harranged := (arranged_of_distinct ids hdistinct).renumberFrom 1 (1 + (listed ids rules).length)
  have hids := nodup_reordered ids hdistinct
  have hsplit := renumberFrom_append 1 (listed ids rules) (unlisted ids rules)
  rw [reordered_eq, hsplit] at hids
  rw [reordered_eq ids rules, hsplit, reordered_eq, harranged.listed_eq hids, harranged.unlisted_eq, ← hsplit,
    renumberFrom_renumberFrom]

theorem active_renumberFrom (n : Int) (rules : List Rule) :
    Rule.active (renumberFrom n rules) = (renumberFrom n rules).filter fun r => r.enabled := by
  refine Ordered.sort_of_pairwise (((renumberFrom_pairwise n rules).filter _).imp ?_)
  intro a b hlt
  exact decide_eq_true (Int.le_of_lt hlt)

/-- What a list of rules becomes when it is reordered. -/
structure Reorders (ids : List String) (rules after : List Rule) : Prop where
  same : (after.map Rule.unnumbered).Perm (rules.map Rule.unnumbered)
  parts : ∃ front back, after = front ++ back ∧ Arranged ids front back ∧
    back.map Rule.unnumbered = (rules.filter fun r => r.id ∉ ids).map Rule.unnumbered
  numbered : ∀ (k : Nat) (r : Rule), after[k]? = some r → r.priority = (k : Int) + 1
  active : Rule.active after = after.filter fun r => r.enabled

theorem reordered_reorders (ids : List String) (hdistinct : (rules.map Rule.id).Nodup) :
    Reorders ids rules (reordered ids rules) where
  same := by
    rw [reordered_eq, map_unnumbered_renumberFrom]
    exact (listed_unlisted_perm ids hdistinct).map _
  parts := by
    refine ⟨_, _, renumberFrom_append 1 _ _, (arranged_of_distinct ids hdistinct).renumberFrom _ _, ?_⟩
    rw [map_unnumbered_renumberFrom]
    simp
  numbered k r hr := by
    have hpriority := priority_renumberFrom 1 (listed ids rules ++ unlisted ids rules) k
    rw [← reordered_eq, hr] at hpriority
    obtain ⟨_, -, hcount⟩ := Option.map_eq_some_iff.mp hpriority.symm
    omega
  active := active_renumberFrom 1 _

end Edit

theorem PolicyVersion.withRules_self (rules : List Rule) (p : PolicyVersion) :
    (p.withRules rules).withRules rules = p.withRules rules := by
  simp only [withRules]
  cases (rules.findSome? Rule.writeError?).isNone with
  | true => simp only [if_true]
  | false => simp only [Bool.false_eq_true, if_false]

namespace Registry

variable {r : Registry} {p : PolicyVersion}

/-- Where an edit makes of rules what it would make of the result, it may be repeated. -/
theorem edit_edit {e : Edit} {rules : List Rule} (hfound : r.find r.current = .ok p)
    (hagain : e (p.withRules rules) = .ok rules) :
    (r.rewritten rules).edit e = .ok (p.withRules rules, r.rewritten rules) := by
  rw [edit_of_find (find_rewritten hfound rules), hagain]
  simp only [Except.map, rewritten_rewritten, PolicyVersion.withRules_self]
  rfl

/-- Rules of distinct ids are reordered, in the first version of the current name, and to do so again changes nothing. -/
theorem reorderRules_reorders (hfound : r.find r.current = .ok p) (hdistinct : (p.rules.map Rule.id).Nodup)
    (ids : List String) :
    ∃ q r', r.reorderRules ids = .ok (q, r') ∧ q = { p with rules := q.rules, signature := q.signature } ∧
      r' = { r with versions := replaceFirst r.current (fun _ => q) r.versions } ∧
        Edit.Reorders ids p.rules q.rules ∧ r'.reorderRules ids = .ok (q, r') := by
  have hagain : Edit.reorder ids (p.withRules (Edit.reordered ids p.rules)) = .ok (Edit.reordered ids p.rules) :=
    congrArg Except.ok (Edit.reordered_reordered ids hdistinct)
  refine ⟨p.withRules (Edit.reordered ids p.rules), r.rewritten (Edit.reordered ids p.rules), ?_, rfl, ?_,
    Edit.reordered_reorders ids hdistinct, edit_edit hfound hagain⟩
  · rw [reorderRules, edit_of_find hfound]
    rfl
  · rw [rewritten, replaceFirst_const (find_eq_ok hfound)]

/-- Two rules in reverse, with an id that is not known and one that is repeated. -/
theorem reorderRules_reorders_pair :
    let ids := ["nobody", "forcing", "nobody", "forcing", "exclusion", "forcing"]
    let rules := [Sample.exclusion "a", Sample.forcing "b"]
    let r := (Sample.world rules).registry
    r.find r.current = .ok (Sample.policy rules) ∧ (rules.map Rule.id).Nodup ∧
      ∃ q r', r.reorderRules ids = .ok (q, r') ∧ q.rules.map Rule.id = ["forcing", "exclusion"] ∧
        Edit.Reorders ids rules q.rules ∧ r'.reorderRules ids = .ok (q, r') := by
  intro ids rules r
  have hfound : r.find r.current = .ok (Sample.policy rules) := rfl
  have hdistinct : (rules.map Rule.id).Nodup := by decide
  obtain ⟨q, r', hq, -, -, hreorders, hagain⟩ := reorderRules_reorders hfound hdistinct ids
  have hids : (r.reorderRules ids).toOption.map (fun x => x.1.rules.map Rule.id) = some ["forcing", "exclusion"] := by
    decide +kernel
  rw [hq] at hids
  exact ⟨hfound, hdistinct, q, r', hq, Option.some.inj hids, hreorders, hagain⟩

end Registry

end WalletRouting
