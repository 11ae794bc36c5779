import WalletRouting.Policy.Condition
import WalletRouting.Policy.Snippet

/-! # Condition trees

Most of what is asked of a tree does not care whether a branch is absent or empty. `Condition.children` forgets the
difference; what a tree comes to is then said of a node and the children of either kind.
-/
namespace WalletRouting
set_option autoImplicit false

structure Comparison where
  field : String
  operator : Operator
  bound : Value

namespace Condition

def children (branch : Option (List Condition)) : List Condition := branch.getD []

theorem sizeOf_lt_of_mem {c : Condition} {branch : Option (List Condition)} (h : c ∈ children branch) :
    sizeOf c < sizeOf branch := by
  cases branch with
  | none => cases h
  | some cs =>
    have hlt := List.sizeOf_lt_of_mem h
    simp only [Option.some.sizeOf_spec]
    exact Nat.lt_add_left 1 hlt

/-- What holds of a node when it holds of its children holds of every tree. -/
theorem induct {P : Condition → Prop}
    (node : ∀ field operator bound all any, (∀ c ∈ children all, P c) → (∀ c ∈ children any, P c) →
      P (.node field operator bound all any)) : ∀ c : Condition, P c
  | .node field operator bound all any =>
    node field operator bound all any (fun c _ => induct node c) (fun c _ => induct node c)
decreasing_by
  all_goals
    have := sizeOf_lt_of_mem ‹c ∈ children _›
    simp only [Condition.node.sizeOf_spec]
    omega

mutual

/-- The tree taken together from its leaves, a node with what its children of either kind have come to. -/
def fold {α : Type} (f : String → Operator → Value → List α → List α → α) : Condition → α
  | .node field operator bound all any => f field operator bound (foldBranch f all) (foldBranch f any)

def foldBranch {α : Type} (f : String → Operator → Value → List α → List α → α) : Option (List Condition) → List α
  | none => []
  | some cs => foldAll f cs

def foldAll {α : Type} (f : String → Operator → Value → List α → List α → α) : List Condition → List α
  | [] => []
  | c :: cs => fold f c :: foldAll f cs

end

@[simp] theorem foldAll_eq {α : Type} (f : String → Operator → Value → List α → List α → α) (cs : List Condition) :
    foldAll f cs = cs.map (fold f) := by
  induction cs with
  | nil => rfl
  | cons c cs ih => rw [foldAll, ih, List.map_cons]

@[simp] theorem foldBranch_eq {α : Type} (f : String → Operator → Value → List α → List α → α)
    (branch : Option (List Condition)) : foldBranch f branch = (children branch).map (fold f) := by
  cases branch with
  | none => rfl
  | some cs => exact foldAll_eq f cs

variable {field : String} {operator : Operator} {bound : Value} {all any : Option (List Condition)}

theorem fold_node {α : Type} (f : String → Operator → Value → List α → List α → α) :
    fold f (.node field operator bound all any) =
      f field operator bound ((children all).map (fold f)) ((children any).map (fold f)) := by
  rw [fold, foldBranch_eq, foldBranch_eq]

/-- The comparisons of a tree: a node's own, then those of its children. -/
def comparisons : Condition → List Comparison :=
  fold fun field operator bound all any => ⟨field, operator, bound⟩ :: (all.flatten ++ any.flatten)

theorem comparisons_node :
    comparisons (.node field operator bound all any) =
      ⟨field, operator, bound⟩ :: ((children all).flatMap comparisons ++ (children any).flatMap comparisons) := by
  rw [comparisons, fold_node, List.flatMap_def, List.flatMap_def]

theorem mem_comparisons_node {x : Comparison} :
    x ∈ comparisons (.node field operator bound all any) ↔
      x = ⟨field, operator, bound⟩ ∨ (∃ c ∈ children all, x ∈ c.comparisons) ∨
        ∃ c ∈ children any, x ∈ c.comparisons := by
  rw [comparisons_node, List.mem_cons, List.mem_append, List.mem_flatMap, List.mem_flatMap]

theorem hasChildren_eq (branch : Option (List Condition)) : hasChildren branch = !(children branch).isEmpty := by
  rcases branch with _ | ⟨_ | ⟨c, cs⟩⟩ <;> rfl

@[simp] theorem everyHolds_eq (truth : String → Operator → Value → Bool) (cs : List Condition) :
    everyHolds truth cs = cs.all (evaluate truth) := by
  induction cs with
  | nil => rfl
  | cons c cs ih => rw [everyHolds, ih, List.all_cons]

@[simp] theorem someHolds_eq (truth : String → Operator → Value → Bool) (cs : List Condition) :
    someHolds truth cs = cs.any (evaluate truth) := by
  induction cs with
  | nil => rfl
  | cons c cs ih => rw [someHolds, ih, List.any_cons]

theorem evaluate_node (truth : String → Operator → Value → Bool) :
    evaluate truth (.node field operator bound all any) =
      if (children all).isEmpty then truth field operator bound || (children any).any (evaluate truth)
      else truth field operator bound && (children all).all (evaluate truth) := by
  have hall : allHold truth all = (children all).all (evaluate truth) := by
    cases all with
    | none => rfl
    | some cs => exact everyHolds_eq truth cs
  have hany : anyHolds truth any = (children any).any (evaluate truth) := by
    cases any with
    | none => rfl
    | some cs => exact someHolds_eq truth cs
  rw [evaluate, hall, hany, hasChildren_eq]
  cases (children all).isEmpty <;> rfl

@[simp] theorem snippets_eq (cs : List Condition) : snippets cs = cs.map snippet := by
  induction cs with
  | nil => rfl
  | cons c cs ih => rw [snippets, ih, List.map_cons]

@[simp] theorem branchSnippets_eq (branch : Option (List Condition)) :
    branchSnippets branch = (children branch).map snippet := by
  cases branch with
  | none => rfl
  | some cs => exact snippets_eq cs

theorem branchWriteErrors_eq (room : Nat) (branch : Option (List Condition)) :
    branchWriteErrors room branch = (children branch).flatMap (writeErrors room) := by
  have hchildren (cs : List Condition) : childWriteErrors room cs = cs.flatMap (writeErrors room) := by
    induction cs with
    | nil => rfl
    | cons c cs ih => rw [childWriteErrors, ih, List.flatMap_cons]
  cases branch with
  | none => rfl
  | some cs => exact hchildren cs

theorem snippet_node :
    snippet (.node field operator bound all any) =
      joined " OR " (joined " AND " (field ++ " " ++ operator.symbol ++ " " ++ bound.operand)
        ((children all).map snippet)) ((children any).map snippet) := by
  rw [snippet, branchSnippets_eq, branchSnippets_eq]

end Condition

end WalletRouting
