/-! # Insertion-ordered maps

A map is the list of its entries. Storing under a key that is there keeps the key's place and replaces
its value; a new key goes last.
-/
namespace WalletRouting
set_option autoImplicit false

abbrev Keyed (α : Type) := List (String × α)

namespace Keyed

variable {α β : Type}

def get? (key : String) : Keyed α → Option α
  | [] => none
  | (k, a) :: rest => if k = key then some a else get? key rest

def put (key : String) (a : α) : Keyed α → Keyed α
  | [] => [(key, a)]
  | (k, b) :: rest => if k = key then (k, a) :: rest else (k, b) :: put key a rest

def keys (m : Keyed α) : List String := m.map Prod.fst

def has (key : String) (m : Keyed α) : Bool := (m.get? key).isSome

def ofPairs (pairs : List (String × α)) : Keyed α := pairs.foldl (fun m p => m.put p.1 p.2) []

def update (m other : Keyed α) : Keyed α := other.foldl (fun m p => m.put p.1 p.2) m

@[simp] theorem get?_put_self (key : String) (a : α) (m : Keyed α) : (m.put key a).get? key = some a := by
  induction m with
  | nil => simp [put, get?]
  | cons p rest ih =>
    obtain ⟨k, b⟩ := p
    by_cases h : k = key <;> simp [put, get?, h, ih]

theorem get?_put_of_ne {key other : String} (hne : other ≠ key) (a : α) (m : Keyed α) :
    (m.put key a).get? other = m.get? other := by
  induction m with
  | nil => simp [put, get?, hne.symm]
  | cons p rest ih =>
    obtain ⟨k, b⟩ := p
    by_cases h : k = key
    · subst h
      simp [put, get?, hne.symm]
    · simp [put, get?, h, ih]

end Keyed

end WalletRouting
