import WalletRouting.Proofs.Ruling.Encounters

/-! # Points

Points add up by instrument, in the order in which they are given; the rule told beside them is the last that gave any.
-/
namespace WalletRouting
set_option autoImplicit false

namespace Ruling

open Encounter (lastWhere)

/-- Points by instrument: their sum in order from zero, and the rule that gave some last. -/
structure Credits (giving : List Encounter) (amount : Encounter → Number) (amounts : Keyed Number)
    (rules : Keyed String) : Prop where
  distinct : amounts.keys.Nodup
  same : rules.keys = amounts.keys
  ids : ∀ id, id ∈ amounts.keys ↔ ∃ e ∈ giving, e.id = id
  sum : ∀ id ∈ amounts.keys,
    amounts.get? id = some (((giving.filter fun e => e.id = id).map amount).foldl Number.add (.int 0))
  last : ∀ id, rules.get? id = (lastWhere (fun e => e.id = id) giving).map fun e => e.rule.id

/-- What an encounter that gives points adds to amounts and rules. -/
def credit (amount : Encounter → Number) (kept : Keyed Number × Keyed String) (e : Encounter) :
    Keyed Number × Keyed String :=
  (kept.1.put e.id (((kept.1.get? e.id).getD (.int 0)).add (amount e)), kept.2.put e.id e.rule.id)

theorem keys_credit (amount : Encounter → Number) (giving : List Encounter) (kept : Keyed Number × Keyed String)
    (hdistinct : kept.1.keys.Nodup) (hsame : kept.2.keys = kept.1.keys) :
    (giving.foldl (credit amount) kept).1.keys.Nodup ∧
      (giving.foldl (credit amount) kept).2.keys = (giving.foldl (credit amount) kept).1.keys ∧
      ∀ id, id ∈ (giving.foldl (credit amount) kept).1.keys ↔ id ∈ kept.1.keys ∨ ∃ e ∈ giving, e.id = id := by
  induction giving generalizing kept with
  | nil => simp [hdistinct, hsame]
  | cons e rest ih =>
    have hnext : (credit amount kept e).2.keys = (credit amount kept e).1.keys := by
      simp only [credit, Keyed.keys_put, hsame]
    obtain ⟨h1, h2, h3⟩ := ih (credit amount kept e) (Keyed.nodup_keys_put hdistinct) hnext
    refine ⟨h1, h2, ?_⟩
    intro id
    rw [List.foldl_cons, h3 id, credit, Keyed.mem_keys_put]
    constructor
    · rintro ((rfl | h) | ⟨x, hx, rfl⟩)
      · exact Or.inr ⟨e, List.mem_cons_self, rfl⟩
      · exact Or.inl h
      · exact Or.inr ⟨x, List.mem_cons_of_mem e hx, rfl⟩
    · rintro (h | ⟨x, hx, rfl⟩)
      · exact Or.inl (Or.inr h)
      · rcases List.mem_cons.mp hx with rfl | hx
        · exact Or.inl (Or.inl rfl)
        · exact Or.inr ⟨x, hx, rfl⟩

theorem foldl_add_some (amount : Encounter → Number) (giving : List Encounter) (n : Number) :
    giving.foldl (fun total e => some ((total.getD (.int 0)).add (amount e))) (some n) =
      some ((giving.map amount).foldl Number.add n) := by
  induction giving generalizing n with
  | nil => rfl
  | cons e rest ih => exact ih _

theorem credits_foldl (amount : Encounter → Number) (giving : List Encounter) :
    Credits giving amount (giving.foldl (credit amount) ([], [])).1 (giving.foldl (credit amount) ([], [])).2 := by
  obtain ⟨hdistinct, hsame, hids⟩ := keys_credit amount giving ([], []) List.nodup_nil rfl
  refine ⟨hdistinct, hsame, fun id => by simpa using hids id, ?_, ?_⟩
  · intro id hid
    have hget := foldl_project (fun kept => kept.1.get? id) (fun e => e.id = id)
      (fun total e => some ((total.getD (.int 0)).add (amount e))) (credit amount)
      (by
        intro kept e he
        obtain rfl := of_decide_eq_true he
        simp [credit])
      (by
        intro kept e he
        simp only [credit, Keyed.get?_put, if_neg (of_decide_eq_false he)])
      giving ([], [])
    obtain ⟨e, he, hid⟩ := ((hids id).mp hid).resolve_left (by simp)
    have hmem : e ∈ giving.filter fun e => e.id = id := List.mem_filter.mpr ⟨he, decide_eq_true hid⟩
    rw [hget]
    cases hgiving : giving.filter fun e => e.id = id with
    | nil =>
      rw [hgiving] at hmem
      cases hmem
    | cons first rest => exact foldl_add_some amount rest _
  · intro id
    have hget := foldl_project (fun kept => kept.2.get? id) (fun e => e.id = id)
      (fun _ e => some e.rule.id) (credit amount)
      (by
        intro kept e he
        obtain rfl := of_decide_eq_true he
        simp [credit])
      (by
        intro kept e he
        simp only [credit, Keyed.get?_put, if_neg (of_decide_eq_false he)])
      giving ([], [])
    rw [hget, foldl_last, lastWhere]
    cases (giving.filter fun e => e.id = id).getLast? <;> rfl

end Ruling

end WalletRouting
