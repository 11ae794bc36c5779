import Mathlib.Data.List.FinRange
import Mathlib.Data.List.Nodup
import WalletRouting.Proofs.Draws.Cycle
import WalletRouting.Proofs.Draws.Position

/-! # Shuffles

A shuffle exchanges position after position, from the last one down, with a drawn one that is not behind it. So nothing is
lost or doubled, and a position is settled once the exchanges are below it. What stands at the last position tells which
exchange came first, what then stands before it tells the next; so every arrangement comes from exactly one list of
exchanges.
-/
namespace WalletRouting
set_option autoImplicit false

open List (Perm)

namespace Generator

variable {α β : Type} {items target : List α} {i j k : Nat} {exchanges : List Nat}

/-! ## One exchange -/

theorem swap_of_lt (hi : i < items.length) (hj : j < items.length) :
    swap items i j = (items.set i items[j]).set j items[i] := by
  unfold swap
  rw [List.getElem?_eq_getElem hi, List.getElem?_eq_getElem hj]

theorem swap_perm (items : List α) (i j : Nat) : (swap items i j).Perm items := by
  unfold swap
  split
  · next a b ha hb =>
    obtain ⟨hi, rfl⟩ := List.getElem?_eq_some_iff.mp ha
    obtain ⟨hj, rfl⟩ := List.getElem?_eq_some_iff.mp hb
    exact List.set_set_perm hi hj
  · exact Perm.refl items

theorem swap_map (f : α → β) (items : List α) (i j : Nat) : swap (items.map f) i j = (swap items i j).map f := by
  unfold swap
  rw [List.getElem?_map, List.getElem?_map]
  cases items[i]? with
  | none => rfl
  | some a =>
    cases items[j]? with
    | none => rfl
    | some b => simp only [Option.map_some, List.map_set]

theorem getElem?_swap_self (hi : i < items.length) (hj : j ≤ i) : (swap items i j)[i]? = items[j]? := by
  have hj' : j < items.length := by omega
  rw [swap_of_lt hi hj', List.getElem?_eq_getElem hj']
  rcases hj.eq_or_lt with rfl | hlt
  · rw [List.getElem?_set_self (by rwa [List.length_set])]
  · rw [List.getElem?_set_ne hlt.ne, List.getElem?_set_self hi]

theorem getElem?_swap_of_lt (hk : i < k) (hj : j ≤ i) : (swap items i j)[k]? = items[k]? := by
  unfold swap
  split
  · rw [List.getElem?_set_ne (by omega), List.getElem?_set_ne (by omega)]
  · rfl

/-! ## Exchanges one after another -/

/-- Exchanges position `i` with the first that is listed, then goes on below `i`. -/
def exchange : Nat → List Nat → List α → List α
  | i + 1, j :: rest, items => exchange i rest (swap items (i + 1) j)
  | _, _, items => items

/-- Whether a shuffle of positions up to `i` can draw what is listed: one for each of them but the first, not behind it. -/
def Admits : Nat → List Nat → Prop
  | 0, [] => True
  | i + 1, j :: rest => j ≤ i + 1 ∧ Admits i rest
  | _, _ => False

theorem eq_nil_of_admits (h : Admits 0 exchanges) : exchanges = [] := by
  cases exchanges with
  | nil => rfl
  | cons => exact h.elim

theorem exchange_perm (i : Nat) (exchanges : List Nat) (items : List α) : (exchange i exchanges items).Perm items := by
  fun_induction exchange i exchanges items with
  | case1 i j rest items ih => exact ih.trans (swap_perm items (i + 1) j)
  | case2 => exact Perm.refl _

theorem exchange_map (f : α → β) (i : Nat) (exchanges : List Nat) (items : List α) :
    exchange i exchanges (items.map f) = (exchange i exchanges items).map f := by
  induction i generalizing exchanges items with
  | zero => rfl
  | succ i ih =>
    cases exchanges with
    | nil => rfl
    | cons j rest => rw [exchange, exchange, swap_map, ih]

/-- Behind the position that is exchanged nothing changes any more. -/
theorem getElem?_exchange (hexchanges : Admits i exchanges) (hk : i < k) : (exchange i exchanges items)[k]? = items[k]? := by
  induction i generalizing exchanges items with
  | zero => rfl
  | succ i ih =>
    cases exchanges with
    | nil => exact hexchanges.elim
    | cons j rest => rw [exchange, ih hexchanges.2 (by omega), getElem?_swap_of_lt hk hexchanges.1]

theorem getElem?_exchange_succ (hlength : i + 1 < items.length) (hexchanges : Admits (i + 1) (j :: exchanges)) :
    (exchange (i + 1) (j :: exchanges) items)[i + 1]? = items[j]? := by
  rw [exchange, getElem?_exchange hexchanges.2 (by omega), getElem?_swap_self hlength hexchanges.1]

/-! ## Every arrangement -/

/-- What stands at a position comes from one not behind it, if all that is behind it stands where it stood. -/
theorem exists_source (hitems : items.Nodup) (htarget : target.Perm items) (hi : i < items.length)
    (hbehind : ∀ k, i < k → target[k]? = items[k]?) : ∃ j ≤ i, target[i]? = items[j]? := by
  have hi' : i < target.length := by rwa [htarget.length_eq]
  obtain ⟨j, hj, hvalue⟩ := List.getElem_of_mem (htarget.subset (List.getElem_mem hi'))
  have hsource : target[i]? = items[j]? := by rw [List.getElem?_eq_getElem hi', List.getElem?_eq_getElem hj, hvalue]
  refine ⟨j, le_of_not_gt fun hlt => hlt.ne ?_, hsource⟩
  exact (List.getElem?_inj hi' (htarget.nodup_iff.mpr hitems)).mp (hsource.trans (hbehind j hlt).symm)

/-- An arrangement that differs only up to a position comes from one list of exchanges from that position down. -/
theorem existsUnique_exchanges (hitems : items.Nodup) (htarget : target.Perm items) (hi : i < items.length)
    (hbehind : ∀ k, i < k → target[k]? = items[k]?) :
    ∃! exchanges, Admits i exchanges ∧ exchange i exchanges items = target := by
  induction i generalizing items with
  | zero =>
    obtain ⟨j, hj, hsource⟩ := exists_source hitems htarget hi hbehind
    obtain rfl : j = 0 := Nat.le_zero.mp hj
    have hsame : items = target := by
      refine List.ext_getElem? fun k => ?_
      rcases Nat.eq_zero_or_pos k with rfl | hk
      · exact hsource.symm
      · exact (hbehind k hk).symm
    exact ⟨[], ⟨trivial, hsame⟩, fun exchanges h => eq_nil_of_admits h.1⟩
  | succ i ih =>
    obtain ⟨j, hj, hsource⟩ := exists_source hitems htarget hi hbehind
    have hperm := swap_perm items (i + 1) j
    have hbehind' : ∀ k, i < k → target[k]? = (swap items (i + 1) j)[k]? := by
      intro k hk
      rcases (Nat.succ_le_of_lt hk).eq_or_lt with rfl | hlt
      · rw [hsource, getElem?_swap_self hi hj]
      · rw [hbehind k hlt, getElem?_swap_of_lt hlt hj]
    obtain ⟨rest, ⟨hrest, hresult⟩, hunique⟩ := ih (hperm.nodup_iff.mpr hitems) (htarget.trans hperm.symm)
      (by rw [hperm.length_eq]; omega) hbehind'
    refine ⟨j :: rest, ⟨⟨hj, hrest⟩, hresult⟩, fun exchanges h => ?_⟩
    -- What stands at the position tells the first exchange, and the induction the others.
    cases exchanges with
    | nil => exact h.1.elim
    | cons j' rest' =>
      have hsource' := getElem?_exchange_succ hi h.1
      rw [h.2, hsource] at hsource'
      obtain rfl := (List.getElem?_inj (by omega) hitems).mp hsource'
      rw [hunique rest' ⟨h.1.2, h.2⟩]

/-! ## Shuffles -/

/-- The positions that are drawn for exchanges from position `i` down. -/
def drawnExchanges : Nat → Generator → List Nat
  | 0, _ => []
  | i + 1, g => (g.position (i + 2)).1 :: drawnExchanges i (g.position (i + 2)).2

theorem shuffleBelow_fst (i : Nat) (items : List α) (g : Generator) :
    (shuffleBelow i items g).1 = exchange i (drawnExchanges i g) items := by
  induction i generalizing items g with
  | zero => rfl
  | succ i ih => exact ih _ _

theorem admits_drawnExchanges (i : Nat) (g : Generator) : Admits i (drawnExchanges i g) := by
  induction i generalizing g with
  | zero => trivial
  | succ i ih => exact ⟨Nat.le_of_lt_succ ((g.position_turn (i + 2)).below (Nat.succ_pos _)), ih _⟩

theorem turn_drawnExchanges (g : Generator) (h : (drawnExchanges i g)[k]? = some j) :
    Turn (g.wordAt k).toNat (i + 1 - k) j := by
  induction i generalizing g k with
  | zero => cases h
  | succ i ih =>
    cases k with
    | zero =>
      obtain rfl := Option.some.inj h
      exact g.position_turn (i + 2)
    | succ k =>
      have hturn := ih g.advance h
      rwa [wordAt_advance, ← Nat.add_sub_add_right (i + 1) 1 k] at hturn

/-- What a shuffle does, and what shuffles can do. -/
structure Shuffles (items : List α) (g : Generator) : Prop where
  perm : (shuffle items g).1.Perm items
  spends : (shuffle items g).2 = ⟨g.seed, g.drawn + (items.length - 1)⟩
  exchanges : (shuffle items g).1 = exchange (items.length - 1) (drawnExchanges (items.length - 1) g) items
  admitted : Admits (items.length - 1) (drawnExchanges (items.length - 1) g)
  turns : ∀ k j, (drawnExchanges (items.length - 1) g)[k]? = some j → Turn (g.wordAt k).toNat (items.length - k) j
  /-- Exchanges depend on positions alone. -/
  positions : ∀ exchanges, exchange (items.length - 1) exchanges items =
    (exchange (items.length - 1) exchanges (List.finRange items.length)).map items.get
  complete : ∀ target : List (Fin items.length), target.Perm (List.finRange items.length) →
    ∃! exchanges, Admits (items.length - 1) exchanges ∧
      exchange (items.length - 1) exchanges (List.finRange items.length) = target

/-- A shuffle rearranges, and there is exactly one list of exchanges for every arrangement of the positions. -/
theorem shuffle_shuffles (items : List α) (g : Generator) : Shuffles items g where
  perm := by
    unfold shuffle
    rw [shuffleBelow_fst]
    exact exchange_perm _ _ _
  spends := shuffleBelow_snd _ items g
  exchanges := shuffleBelow_fst _ items g
  admitted := admits_drawnExchanges _ g
  turns k j h := by
    cases items with
    | nil => cases h
    | cons => exact turn_drawnExchanges g h
  positions exchanges := by rw [← exchange_map, List.map_get_finRange]
  complete target htarget := by
    cases items with
    | nil => exact ⟨[], ⟨trivial, htarget.symm.nil_eq⟩, fun exchanges h => eq_nil_of_admits h.1⟩
    | cons first rest =>
      have hlength : (List.finRange (first :: rest).length).length = rest.length + 1 := List.length_finRange
      refine existsUnique_exchanges (List.nodup_finRange _) htarget ?_ fun k hk => ?_
      · rw [hlength]
        exact Nat.lt_succ_self rest.length
      · change rest.length < k at hk
        rw [List.getElem?_eq_none, List.getElem?_eq_none]
        · exact hlength.trans_le hk
        · exact (htarget.length_eq.trans hlength).trans_le hk

end Generator

end WalletRouting
