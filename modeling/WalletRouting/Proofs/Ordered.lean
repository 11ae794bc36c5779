import WalletRouting.Ordered
import Mathlib.Data.List.Forall2

/-! # What a stable sort keeps

The sorted list is in order and, within any class of elements that all come before one another, it is the
list that was sorted.
-/
namespace WalletRouting
set_option autoImplicit false

namespace Ordered

variable {α : Type} {le : α → α → Bool}

theorem mem_insert {a b : α} {l : List α} : b ∈ insert le a l ↔ b = a ∨ b ∈ l := by
  rw [(insert_perm le a l).mem_iff, List.mem_cons]

theorem mem_sort {a : α} {l : List α} : a ∈ sort le l ↔ a ∈ l := (sort_perm le l).mem_iff

/-- The order need not be total: it is enough that what goes behind may stand behind. `S` is what is known of elements
by the order in which they come. -/
theorem insert_pairwise {S R : α → α → Prop} (front : ∀ a b, S a b → le a b = true → R a b)
    (back : ∀ a b, S a b → le a b = false → R b a) (past : ∀ a b c, S a c → le a b = true → R b c → R a c)
    {a : α} {l : List α} (ha : ∀ b ∈ l, S a b) (h : l.Pairwise R) : (insert le a l).Pairwise R := by
  induction l with
  | nil => simp [insert]
  | cons b rest ih =>
    obtain ⟨hb, hrest⟩ := List.pairwise_cons.mp h
    have hab : S a b := ha b List.mem_cons_self
    have harest : ∀ c ∈ rest, S a c := fun c hc => ha c (List.mem_cons_of_mem b hc)
    unfold insert
    split
    · next hle =>
      refine List.pairwise_cons.mpr ⟨?_, h⟩
      intro c hc
      rcases List.mem_cons.mp hc with rfl | hc
      · exact front a c hab hle
      · exact past a b c (harest c hc) hle (hb c hc)
    · next hle =>
      refine List.pairwise_cons.mpr ⟨?_, ih harest hrest⟩
      intro c hc
      rcases mem_insert.mp hc with rfl | hc
      · exact back c b hab (Bool.eq_false_iff.mpr hle)
      · exact hb c hc

theorem sort_pairwise_of_pairwise {S R : α → α → Prop} (front : ∀ a b, S a b → le a b = true → R a b)
    (back : ∀ a b, S a b → le a b = false → R b a) (past : ∀ a b c, S a c → le a b = true → R b c → R a c)
    {l : List α} (h : l.Pairwise S) : (sort le l).Pairwise R := by
  induction l with
  | nil => exact List.Pairwise.nil
  | cons a rest ih =>
    obtain ⟨ha, hrest⟩ := List.pairwise_cons.mp h
    exact insert_pairwise front back past (fun b hb => ha b (mem_sort.mp hb)) (ih hrest)

theorem sort_pairwise {R : α → α → Prop} (front : ∀ a b, le a b = true → R a b)
    (back : ∀ a b, le a b = false → R b a) (past : ∀ a b c, le a b = true → R b c → R a c) (l : List α) :
    (sort le l).Pairwise R :=
  sort_pairwise_of_pairwise (fun a b _ => front a b) (fun a b _ => back a b) (fun a b c _ => past a b c)
    (List.pairwise_of_forall (R := fun _ _ => True) fun _ _ => trivial)

theorem filter_insert {p : α → Bool} (tied : ∀ a b, p a = true → p b = true → le a b = true) (a : α) (l : List α) :
    (insert le a l).filter p = (a :: l).filter p := by
  induction l with
  | nil => rfl
  | cons b rest ih =>
    unfold insert
    split
    · rfl
    · next hle =>
      rw [List.filter_cons, ih]
      by_cases ha : p a = true
      · have hb : ¬p b = true := fun hb => hle (tied a b ha hb)
        simp [ha, hb]
      · simp [ha, List.filter_cons]

/-- Stability. -/
theorem filter_sort {p : α → Bool} (tied : ∀ a b, p a = true → p b = true → le a b = true) (l : List α) :
    (sort le l).filter p = l.filter p := by
  induction l with
  | nil => rfl
  | cons a rest ih =>
    change (insert le a (sort le rest)).filter p = _
    rw [filter_insert tied, List.filter_cons, ih, List.filter_cons]

theorem insert_of_forall {a : α} {l : List α} (h : ∀ b ∈ l, le a b = true) : insert le a l = a :: l := by
  cases l with
  | nil => rfl
  | cons b rest => simp [insert, h b List.mem_cons_self]

theorem filter_insert_of_sorted (trans : ∀ a b c, le a b = true → le b c = true → le a c = true) (p : α → Bool)
    (a : α) {l : List α} (h : l.Pairwise fun b c => le b c = true) :
    (insert le a l).filter p = if p a then insert le a (l.filter p) else l.filter p := by
  induction l with
  | nil => cases hp : p a <;> simp [insert, hp]
  | cons b rest ih =>
    obtain ⟨hb, hrest⟩ := List.pairwise_cons.mp h
    by_cases hle : le a b = true
    · have hall : ∀ c ∈ (b :: rest).filter p, le a c = true := by
        intro c hc
        rcases List.mem_cons.mp (List.mem_filter.mp hc).1 with rfl | hc
        · exact hle
        · exact trans a b c hle (hb c hc)
      rw [insert_of_forall hall, insert, if_pos hle, List.filter_cons]
    · rw [insert, if_neg hle, List.filter_cons, List.filter_cons, ih hrest]
      cases hpa : p a <;> cases hpb : p b <;> simp [insert, hle]

theorem sort_filter (total : ∀ a b, le a b = false → le b a = true)
    (trans : ∀ a b c, le a b = true → le b c = true → le a c = true) (p : α → Bool) (l : List α) :
    (sort le l).filter p = sort le (l.filter p) := by
  have hsorted (l : List α) : (sort le l).Pairwise fun b c => le b c = true :=
    sort_pairwise (fun _ _ h => h) total trans l
  induction l with
  | nil => rfl
  | cons a rest ih =>
    change (insert le a (sort le rest)).filter p = _
    rw [filter_insert_of_sorted trans p a (hsorted rest), ih, List.filter_cons]
    split
    · rfl
    · rfl

theorem insert_map {β : Type} (f : β → α) (b : β) (l : List β) :
    insert le (f b) (l.map f) = (insert (fun x y => le (f x) (f y)) b l).map f := by
  induction l with
  | nil => rfl
  | cons c rest ih =>
    rw [List.map_cons, insert, insert]
    split
    · rfl
    · rw [ih, List.map_cons]

theorem sort_map {β : Type} (f : β → α) (l : List β) :
    sort le (l.map f) = (sort (fun x y => le (f x) (f y)) l).map f := by
  induction l with
  | nil => rfl
  | cons b rest ih => rw [List.map_cons, sort, sort, ih, insert_map]

theorem insert_forall₂ {β : Type} {R : α → β → Prop} {le' : β → β → Bool}
    (hle : ∀ a b a' b', R a a' → R b b' → le a b = le' a' b') {a : α} {a' : β} (ha : R a a') {l : List α}
    {l' : List β} (h : List.Forall₂ R l l') : List.Forall₂ R (insert le a l) (insert le' a' l') := by
  induction h with
  | nil => exact List.Forall₂.cons ha List.Forall₂.nil
  | @cons b b' rest rest' hb hrest ih =>
    rw [insert, insert, hle a b a' b' ha hb]
    split
    · exact List.Forall₂.cons ha (List.Forall₂.cons hb hrest)
    · exact List.Forall₂.cons hb ih

theorem sort_forall₂ {β : Type} {R : α → β → Prop} {le' : β → β → Bool}
    (hle : ∀ a b a' b', R a a' → R b b' → le a b = le' a' b') {l : List α} {l' : List β} (h : List.Forall₂ R l l') :
    List.Forall₂ R (sort le l) (sort le' l') := by
  induction h with
  | nil => exact List.Forall₂.nil
  | cons ha _ ih => exact insert_forall₂ hle ha ih

end Ordered

end WalletRouting
