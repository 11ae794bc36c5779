import Mathlib.Data.List.Nodup
import Mathlib.Data.List.Pairwise
import WalletRouting.Proofs.Policy.Formula

/-! # What a text says and what a condition asks

A node with children of both kinds asks for those only that must all hold, and its text names the others too. So the
text of a condition never denies what the condition asks, and says more than that exactly where there is such a node.
-/
namespace WalletRouting
set_option autoImplicit false

namespace Condition

/-- Whether no node has children of both kinds. -/
def oneKind : Condition → Bool :=
  fold fun _ _ _ all any => (all.isEmpty || any.isEmpty) && all.all id && any.all id

variable {field : String} {operator : Operator} {bound : Value} {all any : Option (List Condition)}

theorem oneKind_node :
    oneKind (.node field operator bound all any) =
      (((children all).isEmpty || (children any).isEmpty) && (children all).all oneKind &&
        (children any).all oneKind) := by
  rw [oneKind, fold_node, List.all_map, List.all_map, List.isEmpty_map, List.isEmpty_map]
  rfl

theorem shown_eq_evaluate (holds : String → Operator → Value → Bool) (c : Condition) (h : c.oneKind = true) :
    c.shown holds = c.evaluate holds := by
  induction c using induct with
  | node field operator bound all any hall hany =>
    simp only [oneKind_node, Bool.and_eq_true, Bool.or_eq_true, List.isEmpty_iff, List.all_eq_true] at h
    obtain ⟨⟨hkind, honeAll⟩, honeAny⟩ := h
    rw [shown_node, evaluate_node]
    rcases hkind with hnone | hnone
    · have hsame : (children any).any (shown holds) = (children any).any (evaluate holds) := by
        rw [Bool.eq_iff_iff, List.any_eq_true, List.any_eq_true]
        exact exists_congr fun c => and_congr_right fun hc => by rw [hany c hc (honeAny c hc)]
      rw [hnone, hsame]
      simp
    · have hsame : (children all).all (shown holds) = (children all).all (evaluate holds) := by
        rw [Bool.eq_iff_iff, List.all_eq_true, List.all_eq_true]
        exact forall₂_congr fun c hc => by rw [hall c hc (honeAll c hc)]
      rw [hnone, hsame]
      cases hempty : children all <;> simp

theorem shown_of_evaluate (holds : String → Operator → Value → Bool) (c : Condition) (h : c.evaluate holds = true) :
    c.shown holds = true := by
  induction c using induct with
  | node field operator bound all any hall hany =>
    rw [evaluate_node] at h
    rw [shown_node, Bool.or_eq_true, Bool.and_eq_true]
    split at h
    · next hnone =>
      rw [List.isEmpty_iff] at hnone
      rcases Bool.or_eq_true_iff.mp h with hown | hsome
      · exact Or.inl ⟨hown, by rw [hnone]; rfl⟩
      · obtain ⟨c, hc, hholds⟩ := List.any_eq_true.mp hsome
        exact Or.inr (List.any_eq_true.mpr ⟨c, hc, hany c hc hholds⟩)
    · obtain ⟨hown, hevery⟩ := Bool.and_eq_true_iff.mp h
      exact Or.inl ⟨hown, List.all_eq_true.mpr fun c hc => hall c hc (List.all_eq_true.mp hevery c hc)⟩

/-! ## Where the text says more

Of comparisons that are all different, any may hold whatever the others do. -/

/-- Under `truth` of its comparisons the condition is not met, and its text says that it is. -/
def Misread (truth : Comparison → Bool) (c : Condition) : Prop :=
  ∀ holds, (∀ x ∈ c.comparisons, x.truth holds = truth x) → c.evaluate holds = false ∧ c.shown holds = true

theorem eq_of_comparisons {holds : String → Operator → Value → Bool} {b : Bool} {c : Condition}
    (h : ∀ x ∈ c.comparisons, x.truth holds = b) : c.evaluate holds = b ∧ c.shown holds = b := by
  induction c using induct with
  | node field operator bound all any hall hany =>
    simp only [mem_comparisons_node] at h
    have hown : holds field operator bound = b := h _ (Or.inl rfl)
    have hall : ∀ c ∈ children all, c.evaluate holds = b ∧ c.shown holds = b := fun c hc =>
      hall c hc fun x hx => h x (Or.inr (Or.inl ⟨c, hc, hx⟩))
    have hany : ∀ c ∈ children any, c.evaluate holds = b ∧ c.shown holds = b := fun c hc =>
      hany c hc fun x hx => h x (Or.inr (Or.inr ⟨c, hc, hx⟩))
    rw [evaluate_node, shown_node, hown]
    cases b with
    | true =>
      have hevery : (children all).all (evaluate holds) = true := List.all_eq_true.mpr fun c hc => (hall c hc).1
      have hshown : (children all).all (shown holds) = true := List.all_eq_true.mpr fun c hc => (hall c hc).2
      rw [hevery, hshown]
      simp
    | false =>
      have hsome : (children any).any (evaluate holds) = false :=
        List.any_eq_false.mpr fun c hc => Bool.eq_false_iff.mp (hany c hc).1
      have hshown : (children any).any (shown holds) = false :=
        List.any_eq_false.mpr fun c hc => Bool.eq_false_iff.mp (hany c hc).2
      rw [hsome, hshown]
      simp

/-- What holds of the comparisons of one of several conditions, if it is `b` that the others come to. -/
noncomputable def onlyIn (c : Condition) (truth : Comparison → Bool) (b : Bool) (x : Comparison) : Bool :=
  open Classical in if x ∈ c.comparisons then truth x else b

noncomputable def allBut (fails x : Comparison) : Bool :=
  open Classical in if x = fails then false else true

theorem misread_onlyIn {c : Condition} {truth : Comparison → Bool} (hmisread : Misread truth c) {cs : List Condition}
    (hdistinct : (cs.flatMap comparisons).Nodup) (hc : c ∈ cs) (b : Bool) {holds : String → Operator → Value → Bool}
    (hholds : ∀ d ∈ cs, ∀ x ∈ d.comparisons, x.truth holds = onlyIn c truth b x) :
    (c.evaluate holds = false ∧ c.shown holds = true) ∧
      ∀ d ∈ cs, d ≠ c → d.evaluate holds = b ∧ d.shown holds = b := by
  refine ⟨hmisread holds fun x hx => ?_, fun d hd hne => eq_of_comparisons fun x hx => ?_⟩
  · rw [hholds c hc x hx, onlyIn, if_pos hx]
  · have hapart : Function.onFun List.Disjoint comparisons d c :=
      haveI : Std.Symm (Function.onFun List.Disjoint comparisons) := ⟨fun _ _ h => List.disjoint_symm h⟩
      (List.nodup_flatMap.mp hdistinct).2.forall hd hc hne
    rw [hholds d hd x hx, onlyIn, if_neg (hapart hx)]

variable {truth : Comparison → Bool}

/-- A node with children of both kinds is misread when one of those that are ignored holds and the comparison fails. -/
theorem misread_both (hown : ⟨field, operator, bound⟩ ∉ (children any).flatMap comparisons)
    (hall : (children all).isEmpty = false) (hany : (children any).isEmpty = false) :
    Misread (allBut ⟨field, operator, bound⟩) (.node field operator bound all any) := by
  intro holds hholds
  simp only [mem_comparisons_node] at hholds
  have hfails : holds field operator bound = false := (hholds _ (Or.inl rfl)).trans (if_pos rfl)
  obtain ⟨c, hc⟩ := List.isEmpty_eq_false_iff_exists_mem.mp hany
  have hholdsIn : ∀ x ∈ c.comparisons, x.truth holds = true := by
    intro x hx
    rw [hholds x (Or.inr (Or.inr ⟨c, hc, hx⟩)), allBut, if_neg]
    rintro rfl
    exact hown (List.mem_flatMap.mpr ⟨c, hc, hx⟩)
  have hshown : c.shown holds = true := (eq_of_comparisons hholdsIn).2
  rw [evaluate_node, shown_node, hall, hfails]
  exact ⟨rfl, Bool.or_eq_true_iff.mpr (Or.inr (List.any_eq_true.mpr ⟨c, hc, hshown⟩))⟩

theorem misread_all {c : Condition} (hc : c ∈ children all) (hmisread : Misread truth c)
    (hown : ⟨field, operator, bound⟩ ∉ (children all).flatMap comparisons)
    (hdistinct : ((children all).flatMap comparisons).Nodup) (hany : (children any).isEmpty = true) :
    Misread (onlyIn c truth true) (.node field operator bound all any) := by
  intro holds hholds
  simp only [mem_comparisons_node] at hholds
  have hother : holds field operator bound = true :=
    (hholds _ (Or.inl rfl)).trans (if_neg fun hx => hown (List.mem_flatMap.mpr ⟨c, hc, hx⟩))
  obtain ⟨⟨hfails, htext⟩, hrest⟩ := misread_onlyIn hmisread hdistinct hc true
    fun d hd x hx => hholds x (Or.inr (Or.inl ⟨d, hd, hx⟩))
  have hevery : (children all).all (evaluate holds) = false :=
    List.all_eq_false.mpr ⟨c, hc, Bool.eq_false_iff.mp hfails⟩
  have hshown : (children all).all (shown holds) = true := List.all_eq_true.mpr fun d hd => by
    by_cases hsame : d = c
    · exact hsame ▸ htext
    · exact (hrest d hd hsame).2
  rw [evaluate_node, shown_node, hother, List.isEmpty_iff.mp hany,
    List.isEmpty_eq_false_iff_exists_mem.mpr ⟨c, hc⟩, hevery, hshown]
  exact ⟨rfl, rfl⟩

theorem misread_any {c : Condition} (hc : c ∈ children any) (hmisread : Misread truth c)
    (hown : ⟨field, operator, bound⟩ ∉ (children any).flatMap comparisons)
    (hdistinct : ((children any).flatMap comparisons).Nodup) (hall : (children all).isEmpty = true) :
    Misread (onlyIn c truth false) (.node field operator bound all any) := by
  intro holds hholds
  simp only [mem_comparisons_node] at hholds
  have hother : holds field operator bound = false :=
    (hholds _ (Or.inl rfl)).trans (if_neg fun hx => hown (List.mem_flatMap.mpr ⟨c, hc, hx⟩))
  obtain ⟨⟨hfails, htext⟩, hrest⟩ := misread_onlyIn hmisread hdistinct hc false
    fun d hd x hx => hholds x (Or.inr (Or.inr ⟨d, hd, hx⟩))
  have hsome : (children any).any (evaluate holds) = false := List.any_eq_false.mpr fun d hd => by
    by_cases hsame : d = c
    · exact Bool.eq_false_iff.mp (hsame ▸ hfails)
    · exact Bool.eq_false_iff.mp (hrest d hd hsame).1
  have hshown : (children any).any (shown holds) = true := List.any_eq_true.mpr ⟨c, hc, htext⟩
  rw [evaluate_node, shown_node, hother, hall, hsome, hshown]
  exact ⟨rfl, Bool.or_true _⟩

/-- A tree of different comparisons with a node that has children of both kinds can be misread. -/
theorem exists_misread {c : Condition} (hdistinct : c.comparisons.Nodup) (hkind : c.oneKind = false) :
    ∃ truth, Misread truth c := by
  induction c using induct with
  | node field operator bound all any hall hany =>
    rw [comparisons_node, List.nodup_cons, List.nodup_append, List.mem_append, not_or] at hdistinct
    obtain ⟨⟨hownAll, hownAny⟩, hdistinctAll, hdistinctAny, -⟩ := hdistinct
    rw [oneKind_node, Bool.and_eq_false_iff, Bool.and_eq_false_iff, Bool.or_eq_false_iff] at hkind
    -- The node is misread by itself, or else with the child that can be.
    rcases hkind with (⟨hsomeAll, hsomeAny⟩ | hbad) | hbad
    · exact ⟨_, misread_both hownAny hsomeAll hsomeAny⟩
    · obtain ⟨c, hc, hkind⟩ := List.all_eq_false.mp hbad
      obtain ⟨truth, hmisread⟩ := hall c hc ((List.nodup_flatMap.mp hdistinctAll).1 c hc) (Bool.eq_false_iff.mpr hkind)
      cases hnone : (children any).isEmpty with
      | true => exact ⟨_, misread_all hc hmisread hownAll hdistinctAll hnone⟩
      | false =>
        exact ⟨_, misread_both hownAny (List.isEmpty_eq_false_iff_exists_mem.mpr ⟨c, hc⟩) hnone⟩
    · obtain ⟨c, hc, hkind⟩ := List.all_eq_false.mp hbad
      obtain ⟨truth, hmisread⟩ := hany c hc ((List.nodup_flatMap.mp hdistinctAny).1 c hc) (Bool.eq_false_iff.mpr hkind)
      cases hnone : (children all).isEmpty with
      | true => exact ⟨_, misread_any hc hmisread hownAny hdistinctAny hnone⟩
      | false =>
        exact ⟨_, misread_both hownAny hnone (List.isEmpty_eq_false_iff_exists_mem.mpr ⟨c, hc⟩)⟩

/-- The text of a condition can be read, and says so of whatever meets the condition. It says the same as the condition
where no node has children of both kinds, and of different comparisons only there. -/
theorem read_snippet (c : Condition) :
    Token.textOf c.tokens = c.snippet ∧
      (∀ holds, ∃ value, Token.read holds c.tokens = some value ∧ (c.evaluate holds = true → value = true)) ∧
      (c.oneKind = true → ∀ holds, Token.read holds c.tokens = some (c.evaluate holds)) ∧
      (c.comparisons.Nodup → (∀ holds, Token.read holds c.tokens = some (c.evaluate holds)) → c.oneKind = true) := by
  refine ⟨textOf_tokens c, fun holds => ⟨_, read_tokens holds c, shown_of_evaluate holds c⟩, fun hkind holds => ?_,
    fun hdistinct hsame => ?_⟩
  · rw [read_tokens, shown_eq_evaluate holds c hkind]
  · by_contra hkind
    obtain ⟨truth, hmisread⟩ := exists_misread hdistinct (Bool.eq_false_iff.mpr hkind)
    obtain ⟨hfails, htext⟩ := hmisread (fun field operator bound => truth ⟨field, operator, bound⟩) fun _ _ => rfl
    have hsame := hsame fun field operator bound => truth ⟨field, operator, bound⟩
    rw [read_tokens, hfails, htext] at hsame
    cases hsame

/-- A restaurant or more than a hundred, and dining: a small sum spent on dining meets the text, not the condition. -/
theorem snippet_misread :
    let c : Condition := .node "mcc" .eq (.int 5812) (some [.node "amount" .gt (.int 100) none none])
      (some [.node "category" .eq (.text "dining") none none])
    let holds : String → Operator → Value → Bool := fun field _ _ => field != "amount"
    Token.textOf c.tokens = c.snippet ∧
      c.snippet = "((mcc = 5812 AND amount > 100) OR category = \"dining\")" ∧
      Token.read holds c.tokens = some true ∧ c.evaluate holds = false := by
  refine ⟨textOf_tokens _, ?_, ?_, ?_⟩ <;> decide

end Condition

end WalletRouting
