import WalletRouting.Policy.Baseline
import WalletRouting.Proofs.Policy.Tree
import WalletRouting.Proofs.Run.Selection

/-! # Readings that are lost

A comparison with what is missing fails, whatever its operator. So a tree holds of less when readings of it are lost, at
whichever of its nodes: those that must all hold are never helped by a loss, and neither are those of which one must.
-/
namespace WalletRouting
set_option autoImplicit false

theorem Operator.holds_of_lost {op : Operator} {r r' : Reading} {bound : Value} (hlost : r' = .missing ∨ r' = r)
    (h : op.holds r' bound = true) : op.holds r bound = true := by
  rcases hlost with rfl | rfl
  · rw [holds_missing] at h
    cases h
  · exact h

namespace Condition

variable {field : String} {operator : Operator} {bound : Value} {all any : Option (List Condition)}

theorem branchFields_eq (branch : Option (List Condition)) : branchFields branch = (children branch).flatMap fields := by
  have hall (cs : List Condition) : fieldsAll cs = cs.flatMap fields := by
    induction cs with
    | nil => rfl
    | cons c cs ih => rw [fieldsAll, ih, List.flatMap_cons]
  cases branch with
  | none => rfl
  | some cs => exact hall cs

theorem mem_fields_node {name : String} :
    name ∈ fields (.node field operator bound all any) ↔
      name = field ∨ (∃ c ∈ children all, name ∈ c.fields) ∨ ∃ c ∈ children any, name ∈ c.fields := by
  rw [fields, branchFields_eq, branchFields_eq, List.mem_cons, List.mem_append, List.mem_flatMap, List.mem_flatMap]

/-- Readings of the fields of a tree, which may differ from node to node. A node is named by the way to it from the root:
which child it is, and the way on from there. -/
abbrev Readings := List Nat → String → Reading

def Readings.below (readings : Readings) (k : Nat) : Readings := fun way => readings (k :: way)

/-- The tree over readings of its own at every node. -/
def holdsOver : Condition → Readings → Bool :=
  fold fun field operator bound all any readings =>
    if all.isEmpty then
      operator.holds (readings [] field) bound || any.zipIdx.any fun p => p.1 (readings.below p.2)
    else operator.holds (readings [] field) bound && all.zipIdx.all fun p => p.1 (readings.below p.2)

theorem holdsOver_node (readings : Readings) :
    holdsOver (.node field operator bound all any) readings =
      if (children all).isEmpty then
        operator.holds (readings [] field) bound ||
          (children any).zipIdx.any fun p => p.1.holdsOver (readings.below p.2)
      else
        operator.holds (readings [] field) bound &&
          (children all).zipIdx.all fun p => p.1.holdsOver (readings.below p.2) := by
  rw [holdsOver, fold_node, List.isEmpty_map, List.zipIdx_map, List.zipIdx_map, List.any_map, List.all_map]
  rfl

theorem holdsOver_const (reading : String → Reading) (c : Condition) :
    c.holdsOver (fun _ => reading) = c.evaluate fun field op bound => op.holds (reading field) bound := by
  induction c using induct with
  | node field operator bound all any hall hany =>
    have hbelow (k : Nat) : Readings.below (fun _ => reading) k = fun _ => reading := rfl
    have hevery : ((children all).zipIdx.all fun p => p.1.holdsOver fun _ => reading) =
        (children all).all (evaluate fun field op bound => op.holds (reading field) bound) := by
      conv_rhs => rw [← List.zipIdx_map_fst 0 (children all), List.all_map]
      rw [Bool.eq_iff_iff, List.all_eq_true, List.all_eq_true]
      exact forall₂_congr fun p hp => by rw [hall p.1 (List.fst_mem_of_mem_zipIdx hp)]; rfl
    have hsome : ((children any).zipIdx.any fun p => p.1.holdsOver fun _ => reading) =
        (children any).any (evaluate fun field op bound => op.holds (reading field) bound) := by
      conv_rhs => rw [← List.zipIdx_map_fst 0 (children any), List.any_map]
      rw [Bool.eq_iff_iff, List.any_eq_true, List.any_eq_true]
      exact exists_congr fun p => and_congr_right fun hp => by rw [hany p.1 (List.fst_mem_of_mem_zipIdx hp)]; rfl
    rw [holdsOver_node, evaluate_node]
    simp only [hbelow, hevery, hsome]

/-- Each reading of a field of the tree is as it was or is missing. -/
def Lost (c : Condition) (readings readings' : Readings) : Prop :=
  ∀ way, ∀ field ∈ c.fields, readings' way field = .missing ∨ readings' way field = readings way field

theorem Lost.below {c d : Condition} {readings readings' : Readings} (h : Lost c readings readings')
    (hfields : ∀ field ∈ d.fields, field ∈ c.fields) (k : Nat) : Lost d (readings.below k) (readings'.below k) :=
  fun way field hfield => h (k :: way) field (hfields field hfield)

theorem holdsOver_of_lost {c : Condition} {readings readings' : Readings} (hlost : Lost c readings readings')
    (h : c.holdsOver readings' = true) : c.holdsOver readings = true := by
  induction c using induct generalizing readings readings' with
  | node field operator bound all any hall hany =>
    have hown : operator.holds (readings' [] field) bound = true → operator.holds (readings [] field) bound = true :=
      Operator.holds_of_lost (hlost [] field (mem_fields_node.mpr (Or.inl rfl)))
    have hevery {p : Condition × Nat} (hp : p ∈ (children all).zipIdx)
        (hholds : p.1.holdsOver (readings'.below p.2) = true) : p.1.holdsOver (readings.below p.2) = true := by
      have hmem := List.fst_mem_of_mem_zipIdx hp
      exact hall p.1 hmem (hlost.below (fun _ h => mem_fields_node.mpr (Or.inr (Or.inl ⟨_, hmem, h⟩))) p.2) hholds
    have hsome {p : Condition × Nat} (hp : p ∈ (children any).zipIdx)
        (hholds : p.1.holdsOver (readings'.below p.2) = true) : p.1.holdsOver (readings.below p.2) = true := by
      have hmem := List.fst_mem_of_mem_zipIdx hp
      exact hany p.1 hmem (hlost.below (fun _ h => mem_fields_node.mpr (Or.inr (Or.inr ⟨_, hmem, h⟩))) p.2) hholds
    rw [holdsOver_node] at h ⊢
    split at h
    · next hnone =>
      rw [if_pos hnone]
      rw [Bool.or_eq_true, List.any_eq_true] at h ⊢
      exact h.imp hown fun ⟨p, hp, hholds⟩ => ⟨p, hp, hsome hp hholds⟩
    · next hsome =>
      rw [if_neg hsome]
      rw [Bool.and_eq_true, List.all_eq_true] at h ⊢
      exact h.imp hown fun hholds p hp => hevery hp (hholds p hp)

theorem holdsOver_missing {c : Condition} {readings : Readings}
    (h : ∀ way, ∀ field ∈ c.fields, readings way field = .missing) : c.holdsOver readings = false := by
  induction c using induct generalizing readings with
  | node field operator bound all any hall hany =>
    have hown : operator.holds (readings [] field) bound = false := by
      rw [h [] field (mem_fields_node.mpr (Or.inl rfl))]
      rfl
    have hsome : ((children any).zipIdx.any fun p => p.1.holdsOver (readings.below p.2)) = false := by
      refine List.any_eq_false.mpr fun p hp => Bool.eq_false_iff.mp ?_
      have hmem := List.fst_mem_of_mem_zipIdx hp
      exact hany p.1 hmem fun way field hfield =>
        h (p.2 :: way) field (mem_fields_node.mpr (Or.inr (Or.inr ⟨_, hmem, hfield⟩)))
    rw [holdsOver_node, hown, hsome, Bool.false_and, Bool.or_false, ite_self]

/-- What becomes of a tree over a transaction, an instrument and a user when readings are lost. -/
structure FailsClosed (c : Condition) (t : Transaction) (i : Instrument) (u : User) : Prop where
  /-- As long as nothing is lost, the readings of every node are those of the ordinary evaluation. -/
  whole : c.holdsOver (fun _ field => Field.resolve field t i u) = c.holds t i u
  /-- Whatever is lost, at whichever nodes, the tree holds of nothing that it did not hold of. -/
  lost : ∀ readings, Lost c (fun _ field => Field.resolve field t i u) readings →
    c.holdsOver readings = true → c.holds t i u = true
  /-- So it is if the readings are lost from the data themselves. -/
  elsewhere : ∀ t' i' u', (∀ field ∈ c.fields,
      Field.resolve field t' i' u' = .missing ∨ Field.resolve field t' i' u' = Field.resolve field t i u) →
    c.holds t' i' u' = true → c.holds t i u = true
  /-- A tree that held does not hold any more once all is lost. -/
  nothing : c.holdsOver (fun _ _ => .missing) = false
  unresolved : (∀ field ∈ c.fields, Field.resolve field t i u = .missing) → c.holds t i u = false

/-- No tree holds for want of data. -/
theorem fails_closed (c : Condition) (t : Transaction) (i : Instrument) (u : User) : c.FailsClosed t i u := by
  have hwhole (t : Transaction) (i : Instrument) (u : User) :
      c.holdsOver (fun _ field => Field.resolve field t i u) = c.holds t i u :=
    holdsOver_const (fun field => Field.resolve field t i u) c
  refine ⟨hwhole t i u, ?_, ?_, holdsOver_missing fun _ _ _ => rfl, ?_⟩
  · intro readings hlost h
    rw [← hwhole t i u]
    exact holdsOver_of_lost hlost h
  · intro t' i' u' hlost h
    rw [← hwhole t' i' u'] at h
    rw [← hwhole t i u]
    exact holdsOver_of_lost (fun _ => hlost) h
  · intro hmissing
    rw [← hwhole t i u]
    exact holdsOver_missing fun _ => hmissing

/-- A node that must hold is lost, or one of which another holds in its place. -/
theorem fails_closed_on_negations :
    let c : Condition := .node "id" .neq (.text "b")
      (some [Baseline.compare "name" .notIn (.list [.text "b"]),
        .node "network" .neq (.text "visa") none (some [Baseline.compare "mcc" .eq (.int 5411)])]) none
    let reading := fun field => Field.resolve field Sample.purchase (.card (Sample.card "a")) Sample.user
    let without (lost : List Nat) : Readings := fun way field => if way = lost then .missing else reading field
    c.holds Sample.purchase (.card (Sample.card "a")) Sample.user = true ∧ c.holdsOver (without [0]) = false ∧
      Lost c (fun _ => reading) (without [1]) ∧ c.holdsOver (without [1]) = true := by
  intro c reading without
  have hlost (way : List Nat) : Lost c (fun _ => reading) (without way) := fun way' _ _ => ite_eq_or_eq _ _ _
  have hstays : c.holdsOver (without [1]) = true := by decide +kernel
  exact ⟨(fails_closed c Sample.purchase (.card (Sample.card "a")) Sample.user).lost _ (hlost [1]) hstays,
    by decide +kernel, hlost [1], hstays⟩

end Condition

end WalletRouting
