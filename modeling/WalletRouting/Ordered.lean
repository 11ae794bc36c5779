/-! # Stable sorting

Insertion keeps elements that compare equal in the order in which they came.
-/
namespace WalletRouting
set_option autoImplicit false

namespace Ordered

variable {α : Type}

def insert (le : α → α → Bool) (a : α) : List α → List α
  | [] => [a]
  | b :: rest => if le a b then a :: b :: rest else b :: insert le a rest

def sort (le : α → α → Bool) : List α → List α
  | [] => []
  | a :: rest => insert le a (sort le rest)

theorem insert_perm (le : α → α → Bool) (a : α) (l : List α) : (insert le a l).Perm (a :: l) := by
  induction l with
  | nil => exact .refl _
  | cons b rest ih =>
    unfold insert
    split
    · exact .refl _
    · exact (ih.cons b).trans (.swap a b rest)

theorem sort_perm (le : α → α → Bool) (l : List α) : (sort le l).Perm l := by
  induction l with
  | nil => exact .refl _
  | cons a rest ih => exact (insert_perm le a _).trans (ih.cons a)

end Ordered

end WalletRouting
