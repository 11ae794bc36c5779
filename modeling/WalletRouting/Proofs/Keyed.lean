import Mathlib.Data.List.Induction
import WalletRouting.Keyed

/-! # Laws of insertion-ordered maps

A map is used through `get?` and `keys`; storing keeps the keys distinct.
-/
namespace WalletRouting
set_option autoImplicit false

namespace Keyed

variable {α β : Type}

@[simp] theorem keys_nil : keys ([] : Keyed α) = [] := rfl

@[simp] theorem keys_cons (p : String × α) (m : Keyed α) : keys (p :: m) = p.1 :: keys m := rfl

theorem get?_put (key other : String) (a : α) (m : Keyed α) :
    (m.put key a).get? other = if key = other then some a else m.get? other := by
  by_cases h : key = other
  · subst h
    simp
  · simp [h, get?_put_of_ne (Ne.symm h)]

theorem get?_update_of_agree {key : String} {a : α} {m other : Keyed α} (hm : m.get? key = some a)
    (h : ∀ b, (key, b) ∈ other → b = a) : (m.update other).get? key = some a := by
  unfold update
  induction other generalizing m with
  | nil => exact hm
  | cons p rest ih =>
    obtain ⟨k, b⟩ := p
    refine ih ?_ fun c hc => h c (List.mem_cons_of_mem _ hc)
    rw [get?_put]
    split
    · next hk => rw [h b (hk ▸ List.mem_cons_self)]
    · exact hm

theorem get?_eq_none_iff {key : String} {m : Keyed α} : m.get? key = none ↔ key ∉ m.keys := by
  induction m with
  | nil => simp [get?]
  | cons p rest ih =>
    obtain ⟨k, b⟩ := p
    by_cases h : k = key
    · simp [get?, h]
    · simp [get?, h, ih, Ne.symm h]

theorem mem_keys_iff {key : String} {m : Keyed α} : key ∈ m.keys ↔ ∃ a, m.get? key = some a := by
  rw [← Option.isSome_iff_exists, ← Option.ne_none_iff_isSome, ne_eq, get?_eq_none_iff, Classical.not_not]

theorem has_eq_false_iff {key : String} {m : Keyed α} : m.has key = false ↔ m.get? key = none := by
  rw [has, Option.isSome_eq_false_iff, Option.isNone_iff_eq_none]

theorem mem_of_get? {key : String} {a : α} {m : Keyed α} (h : m.get? key = some a) : (key, a) ∈ m := by
  induction m with
  | nil => cases h
  | cons p rest ih =>
    obtain ⟨k, b⟩ := p
    unfold get? at h
    split at h
    · next hk =>
      subst hk
      cases h
      exact List.mem_cons_self
    · exact List.mem_cons_of_mem _ (ih h)

theorem filter_key {key : String} {m : Keyed α} (hnodup : m.keys.Nodup) :
    m.filter (fun p => p.1 = key) = ((m.get? key).map fun a => (key, a)).toList := by
  induction m with
  | nil => rfl
  | cons p rest ih =>
    obtain ⟨k, b⟩ := p
    obtain ⟨hfresh, hnodup⟩ := List.nodup_cons.mp hnodup
    by_cases h : k = key
    · subst h
      have hnone : get? k rest = none := get?_eq_none_iff.mpr hfresh
      rw [List.filter_cons, ih hnodup, hnone]
      simp [get?]
    · rw [List.filter_cons, ih hnodup]
      simp [get?, h]

theorem get?_of_mem {key : String} {a : α} {m : Keyed α} (hnodup : m.keys.Nodup) (h : (key, a) ∈ m) :
    m.get? key = some a := by
  have hmem : (key, a) ∈ m.filter fun p => p.1 = key := List.mem_filter.mpr ⟨h, decide_eq_true rfl⟩
  rw [filter_key hnodup] at hmem
  cases hget : m.get? key with
  | none =>
    rw [hget] at hmem
    cases hmem
  | some b =>
    rw [hget] at hmem
    obtain ⟨-, rfl⟩ := Prod.mk.inj (List.mem_singleton.mp hmem)
    rfl

theorem get?_filter {key : String} {m : Keyed α} (keep : String → Bool) :
    get? key (m.filter fun p => keep p.1) = if keep key then m.get? key else none := by
  induction m with
  | nil => simp [get?]
  | cons p rest ih =>
    obtain ⟨k, b⟩ := p
    by_cases hkey : k = key
    · subst hkey
      cases hkeep : keep k <;> simp [hkeep, get?, ih]
    · cases hkeep : keep k <;> simp [hkeep, get?, hkey, ih]

theorem nodup_keys_filter {m : Keyed α} (hnodup : m.keys.Nodup) (keep : String × α → Bool) :
    (keys (m.filter keep)).Nodup := hnodup.sublist (List.filter_sublist.map Prod.fst)

theorem filter_key_of_keep {key : String} {m : Keyed α} (hnodup : m.keys.Nodup) (keep : String → Bool) :
    (m.filter fun p => keep p.1).filter (fun p => p.1 = key) =
      if keep key then ((m.get? key).map fun a => (key, a)).toList else [] := by
  rw [filter_key (nodup_keys_filter hnodup _), get?_filter]
  cases keep key <;> rfl

theorem get?_map {key : String} {m : Keyed α} (f : α → β) :
    get? key (m.map fun p => (p.1, f p.2)) = (m.get? key).map f := by
  induction m with
  | nil => rfl
  | cons p rest ih =>
    obtain ⟨k, b⟩ := p
    by_cases hkey : k = key
    · simp [get?, hkey]
    · simp [get?, hkey, ih]

theorem keys_put (key : String) (a : α) (m : Keyed α) :
    (m.put key a).keys = if key ∈ m.keys then m.keys else m.keys ++ [key] := by
  induction m with
  | nil => simp [put]
  | cons p rest ih =>
    obtain ⟨k, b⟩ := p
    by_cases h : k = key
    · simp [put, h]
    · by_cases hmem : key ∈ keys rest <;> simp [put, h, Ne.symm h, ih, hmem]

theorem mem_keys_put {key other : String} {a : α} {m : Keyed α} :
    other ∈ (m.put key a).keys ↔ other = key ∨ other ∈ m.keys := by
  rw [keys_put]
  split
  · next h =>
    constructor
    · exact Or.inr
    · rintro (rfl | hother)
      · exact h
      · exact hother
  · simp [or_comm]

theorem nodup_keys_put {key : String} {a : α} {m : Keyed α} (h : m.keys.Nodup) : (m.put key a).keys.Nodup := by
  rw [keys_put]
  split
  · exact h
  · next hfresh =>
    rw [List.nodup_append]
    refine ⟨h, by simp, ?_⟩
    rintro k hk _ hkey rfl
    rw [List.mem_singleton.mp hkey] at hk
    exact hfresh hk

theorem put_of_not_mem {key : String} (a : α) {m : Keyed α} (h : key ∉ m.keys) : m.put key a = m ++ [(key, a)] := by
  induction m with
  | nil => rfl
  | cons p rest ih =>
    obtain ⟨k, b⟩ := p
    simp only [keys_cons, List.mem_cons, not_or] at h
    simp [put, Ne.symm h.1, ih h.2]

theorem foldl_put_of_nodup {m : Keyed α} {pairs : List (String × α)} (h : (keys (m ++ pairs)).Nodup) :
    pairs.foldl (fun m p => m.put p.1 p.2) m = m ++ pairs := by
  induction pairs generalizing m with
  | nil => exact (List.append_nil m).symm
  | cons p rest ih =>
    have hfresh : p.1 ∉ keys m := by
      rw [keys, List.map_append, List.nodup_append] at h
      exact fun hp => h.2.2 p.1 hp p.1 List.mem_cons_self rfl
    have happend : m ++ p :: rest = m ++ [p] ++ rest := by rw [List.append_assoc, List.singleton_append]
    rw [List.foldl_cons, put_of_not_mem p.2 hfresh, happend]
    rw [happend] at h
    exact ih h

theorem ofPairs_of_nodup {pairs : List (String × α)} (h : (keys pairs).Nodup) : ofPairs pairs = pairs :=
  foldl_put_of_nodup (m := []) h

theorem mem_keys_ofPairs {key : String} {pairs : List (String × α)} :
    key ∈ (ofPairs pairs).keys ↔ key ∈ pairs.map Prod.fst := by
  have hfold (m : Keyed α) : key ∈ (pairs.foldl (fun m p => m.put p.1 p.2) m).keys ↔
      key ∈ m.keys ∨ key ∈ pairs.map Prod.fst := by
    induction pairs generalizing m with
    | nil => simp
    | cons p rest ih => rw [List.foldl_cons, ih, mem_keys_put, List.map_cons, List.mem_cons, or_assoc, or_left_comm]
  rw [ofPairs, hfold]
  simp

theorem put_map (f : α → β) (key : String) (a : α) (m : Keyed α) :
    put key (f a) (m.map fun p => (p.1, f p.2)) = (m.put key a).map fun p => (p.1, f p.2) := by
  induction m with
  | nil => rfl
  | cons p rest ih =>
    obtain ⟨k, b⟩ := p
    by_cases h : k = key <;> simp [put, h, ih]

theorem ofPairs_map (f : α → β) (pairs : List (String × α)) :
    ofPairs (pairs.map fun p => (p.1, f p.2)) = (ofPairs pairs).map fun p => (p.1, f p.2) := by
  have hfold (m : Keyed α) : (pairs.map fun p => (p.1, f p.2)).foldl (fun m p => put p.1 p.2 m)
      (m.map fun p => (p.1, f p.2)) = (pairs.foldl (fun m p => m.put p.1 p.2) m).map fun p => (p.1, f p.2) := by
    induction pairs generalizing m with
    | nil => rfl
    | cons p rest ih =>
      rw [List.map_cons, List.foldl_cons, List.foldl_cons, ← ih, ← put_map]
  exact hfold []

/-- Of values for one key the last counts, and before all of them what the map holds. -/
theorem get?_update (key : String) (m other : Keyed α) :
    (m.update other).get? key = ((other.filter fun p => p.1 = key).getLast?.map Prod.snd).or (m.get? key) := by
  unfold update
  induction other generalizing m with
  | nil => rfl
  | cons p rest ih =>
    rw [List.foldl_cons, ih, get?_put, List.filter_cons]
    by_cases h : p.1 = key
    · rw [if_pos h, if_pos (decide_eq_true h), List.getLast?_cons]
      cases (rest.filter fun p => p.1 = key).getLast? <;> rfl
    · rw [if_neg h, if_neg (by simpa using h)]

theorem get?_ofPairs (key : String) (pairs : List (String × α)) :
    (ofPairs pairs).get? key = (pairs.filter fun p => p.1 = key).getLast?.map Prod.snd := by
  have hget := get?_update key [] pairs
  exact hget.trans Option.or_none

theorem keys_ofPairs (pairs : List (String × α)) : (ofPairs pairs).keys = (pairs.map Prod.fst).eraseDups := by
  induction pairs using List.reverseRecOn with
  | nil => rfl
  | append_singleton pairs p ih =>
    have hput : ofPairs (pairs ++ [p]) = (ofPairs pairs).put p.1 p.2 := by
      rw [ofPairs, List.foldl_append]
      rfl
    rw [hput, keys_put, ih, List.map_append, List.eraseDups_append]
    simp only [List.mem_eraseDups, List.map_cons, List.map_nil, List.removeAll]
    by_cases hmem : p.1 ∈ pairs.map Prod.fst
    · rw [if_pos hmem]
      simp [hmem]
    · rw [if_neg hmem]
      simp [hmem, List.eraseDups_cons]

theorem get?_ofPairs_of_last {pairs : List (String × α)} {k : Nat} {key : String} {a : α}
    (h : pairs[k]? = some (key, a)) (hlater : ∀ p ∈ pairs.drop (k + 1), p.1 ≠ key) :
    (ofPairs pairs).get? key = some a := by
  obtain ⟨hk, hpair⟩ := List.getElem?_eq_some_iff.mp h
  have hsplit : pairs.take k ++ (key, a) :: pairs.drop (k + 1) = pairs := by
    rw [← hpair, List.getElem_cons_drop, List.take_append_drop]
  have hnone : (pairs.drop (k + 1)).filter (fun p => p.1 = key) = [] := by
    rw [List.filter_eq_nil_iff]
    intro p hp
    simpa using hlater p hp
  rw [get?_ofPairs, ← hsplit, List.filter_append, List.filter_cons, if_pos (decide_eq_true rfl), hnone,
    List.getLast?_concat]
  rfl

theorem get?_update_ofPairs (key : String) (m other : Keyed α) :
    (m.update other).get? key = ((ofPairs other).get? key).or (m.get? key) := by
  rw [get?_update, get?_ofPairs]

theorem has_ofPairs (key : String) (pairs : List (String × α)) : (ofPairs pairs).has key = has key pairs := by
  rw [has, has, Bool.eq_iff_iff, Option.isSome_iff_exists, Option.isSome_iff_exists, ← mem_keys_iff, ← mem_keys_iff,
    mem_keys_ofPairs]
  rfl

/-- Lists are the same up to order where they are the same at every key. -/
theorem perm_of_filter_eq {ι κ : Type} [DecidableEq κ] (key : ι → κ) {l l' : List ι}
    (h : ∀ k, l.filter (fun a => key a = k) = l'.filter fun a => key a = k) : l.Perm l' := by
  classical
  rw [List.perm_iff_count]
  intro a
  have hcount (l : List ι) : (l.filter fun b => key b = key a).count a = l.count a :=
    List.count_filter (decide_eq_true rfl)
  rw [← hcount l, h, hcount]

/-- Maps that hold the same under every key, perhaps in another order. -/
structure Rearranged (m m' : Keyed α) : Prop where
  distinct : m.keys.Nodup
  same : ∀ key, m.get? key = m'.get? key
  entries : m.Perm m'

theorem rearranged_of_get? {m m' : Keyed α} (h : m.keys.Nodup) (h' : m'.keys.Nodup)
    (hsame : ∀ key, m.get? key = m'.get? key) : Rearranged m m' := by
  refine ⟨h, hsame, perm_of_filter_eq Prod.fst ?_⟩
  intro key
  rw [filter_key h, filter_key h', hsame]

end Keyed

end WalletRouting
