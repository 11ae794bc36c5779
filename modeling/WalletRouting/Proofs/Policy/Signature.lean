import WalletRouting.Policy.Baseline
import WalletRouting.Proofs.Json.Canonical
import WalletRouting.Proofs.Policy.Provision

/-! # What a signature covers

The canonical text of some rules tells what each of them provides. It tells nothing else, and no two provisions are
written alike.
-/
namespace WalletRouting
set_option autoImplicit false

namespace Rule

/-- A rule that can be written, with nothing but finite numbers where any value may stand. The names in an object
differ, as they do wherever one is read. -/
structure Expressible (r : Rule) : Prop where
  writable : r.writeErrors = []
  finite : ∀ v ∈ r.freeValues, v.isFinite = true
  distinct : ∀ v ∈ r.freeValues, ∀ object ∈ v.names, (object.map Text.points).Nodup

end Rule

/-! ## Names -/

namespace Value

theorem WellNamed.unlessNull {v w : Value} (h : v.WellNamed) (hfinite : v.isFinite = true)
    (hw : some w = v.unlessNull) : w.WellNamed := by
  have hfinitePart := finitePart_of_isFinite hfinite
  unfold Value.unlessNull at hw
  split at hw
  · cases hw
  · rw [Option.some.inj hw, hfinitePart]
    exact h

theorem wellNamed_text (s : String) : WellNamed (.text s) := by
  intro object hobject
  cases hobject

end Value

theorem keys_present_sublist (names : List String) (values : List (Option Value)) :
    (((names.zip values).filterMap fun (k, v) => v.map fun v => (k, v)).map Prod.fst).Sublist names := by
  induction names generalizing values with
  | nil => exact List.Sublist.refl []
  | cons k names ih =>
    rcases values with _ | ⟨_ | v, values⟩
    · exact List.nil_sublist _
    · exact (ih values).cons k
    · exact (ih values).cons_cons k

theorem wellNamed_present {names : List String} {values : List (Option Value)}
    (hwhole : ∀ name ∈ names, Text.isWhole name = true) (hnodup : (names.map Text.points).Nodup)
    (hvalues : ∀ v, some v ∈ values → v.WellNamed) : (present (names.zip values)).WellNamed := by
  have hsublist := keys_present_sublist names values
  rw [present, Value.wellNamed_object]
  refine ⟨⟨fun m hm => hwhole m.1 (hsublist.subset (List.mem_map_of_mem hm)), ?_⟩, fun m hm => ?_⟩
  · have hpoints := hnodup.sublist (hsublist.map Text.points)
    rwa [List.map_map] at hpoints
  · obtain ⟨⟨k, v⟩, hmem, hv⟩ := List.mem_filterMap.mp hm
    obtain ⟨w, rfl, rfl⟩ := Option.map_eq_some_iff.mp hv
    exact hvalues w (List.of_mem_zip hmem).2

namespace Condition

theorem exists_writable_bound {c : Condition} {room : Nat} (h : c.writeErrors room = []) :
    ∀ x ∈ c.comparisons, ∃ room, x.bound.writeErrors room = [] := by
  induction c using induct generalizing room with
  | node field operator bound all any hall hany =>
    cases room with
    | zero => cases h
    | succ room =>
      rw [writeErrors, branchWriteErrors_eq, branchWriteErrors_eq] at h
      simp only [List.append_eq_nil_iff, List.flatMap_eq_nil_iff] at h
      intro x hx
      rcases mem_comparisons_node.mp hx with rfl | ⟨c, hc, hx⟩ | ⟨c, hc, hx⟩
      · exact ⟨room, h.1⟩
      · exact hall c hc (h.2.1 c hc) x hx
      · exact hany c hc (h.2.2 c hc) x hx

theorem wellNamed_content {c : Condition}
    (h : ∀ x ∈ c.comparisons, x.bound.WellNamed ∧ x.bound.isFinite = true) : c.content.WellNamed := by
  induction c using induct with
  | node field operator bound all any hall hany =>
    simp only [mem_comparisons_node] at h
    have hbranch (branch : Option (List Condition)) (hwell : ∀ c ∈ children branch, c.content.WellNamed) (v : Value)
        (hv : some v = branchContent branch) : v.WellNamed := by
      rw [branchContent_eq] at hv
      cases branch with
      | none => cases hv
      | some cs =>
        rw [Option.some.inj hv, Value.wellNamed_list, List.forall_mem_map]
        exact hwell
    have hown := h _ (Or.inl rfl)
    rw [content_node]
    refine wellNamed_present (by decide) (by decide) fun v hv => ?_
    simp only [List.mem_cons, List.not_mem_nil, or_false, Option.some.injEq] at hv
    rcases hv with rfl | rfl | hv | hv | hv
    · exact Value.wellNamed_text _
    · exact Value.wellNamed_text _
    · exact hown.1.unlessNull hown.2 hv
    · exact hbranch all (fun c hc => hall c hc fun x hx => h x (Or.inr (Or.inl ⟨c, hc, hx⟩))) v hv
    · exact hbranch any (fun c hc => hany c hc fun x hx => h x (Or.inr (Or.inr ⟨c, hc, hx⟩))) v hv

end Condition

theorem Action.wellNamed_content {a : Action} (h : a.propertyValue.WellNamed)
    (hfinite : a.propertyValue.isFinite = true) : a.content.WellNamed := by
  have htext (o : Option String) (v : Value) (hv : some v = o.map .text) : v.WellNamed := by
    obtain ⟨t, -, rfl⟩ := Option.map_eq_some_iff.mp hv.symm
    exact Value.wellNamed_text t
  have hfloat (o : Option Double) (v : Value) (hv : some v = o.map .float) : v.WellNamed := by
    obtain ⟨x, -, rfl⟩ := Option.map_eq_some_iff.mp hv.symm
    intro object hobject
    cases hobject
  rw [content_eq]
  refine wellNamed_present (by decide) (by decide) fun v hv => ?_
  simp only [List.mem_cons, List.not_mem_nil, or_false, Option.some.injEq] at hv
  rcases hv with rfl | hv | hv | hv | hv | hv | rfl
  · exact Value.wellNamed_text _
  · exact htext _ v hv
  · exact htext _ v hv
  · exact h.unlessNull hfinite hv
  · exact hfloat _ v hv
  · exact hfloat _ v hv
  · exact Value.wellNamed_text _

namespace Rule

theorem Expressible.wellNamed {r : Rule} (h : r.Expressible) : ∀ v ∈ r.freeValues, v.WellNamed := by
  obtain ⟨hcondition, haction⟩ := List.append_eq_nil_iff.mp h.writable
  intro v hv object hobject
  have hwritable : ∃ room, v.writeErrors room = [] := by
    rw [freeValues, List.mem_append, List.mem_map, List.mem_singleton] at hv
    rcases hv with ⟨x, hx, rfl⟩ | rfl
    · exact Condition.exists_writable_bound hcondition x hx
    · exact ⟨_, haction⟩
  obtain ⟨room, hroom⟩ := hwritable
  exact ⟨Value.isWhole_of_writable hroom object hobject, h.distinct v hv object hobject⟩

theorem Expressible.wellNamed_content {r : Rule} (h : r.Expressible) : r.content.WellNamed := by
  have hnamed := h.wellNamed
  have hfinite := h.finite
  simp only [freeValues, List.forall_mem_append, List.forall_mem_map, List.forall_mem_singleton] at hnamed hfinite
  rw [content_eq]
  refine wellNamed_present (by decide) (by decide) fun v hv => ?_
  simp only [List.mem_cons, List.not_mem_nil, or_false, Option.some.injEq] at hv
  rcases hv with rfl | rfl | rfl | rfl | rfl
  · exact Value.wellNamed_text _
  · exact Value.wellNamed_text _
  · intro object hobject
    cases hobject
  · exact Condition.wellNamed_content fun x hx => ⟨hnamed.1 x hx, hfinite.1 x hx⟩
  · exact Action.wellNamed_content hnamed.2 hfinite.2

/-- Whether rules differ in nothing but label, switch, expiry and stored snippet. -/
def Relabels (r s : Rule) : Prop :=
  s = { r with label := s.label, enabled := s.enabled, expiry := s.expiry, compiled := s.compiled }

end Rule

namespace Signature

/-- The canonical texts of two lists of rules are the same exactly if the lists provide the same, rule by rule. Labels,
switches, expiries and stored snippets never matter. -/
theorem canonicalText_eq_iff {a b : List Rule} (ha : ∀ r ∈ a, r.Expressible) (hb : ∀ r ∈ b, r.Expressible) :
    (canonicalText a = canonicalText b ↔ a.map Rule.provision = b.map Rule.provision) ∧
      ∀ c, List.Forall₂ Rule.Relabels a c → canonicalText a = canonicalText c := by
  constructor
  · have hnamed (rules : List Rule) (h : ∀ r ∈ rules, r.Expressible) :
        (Value.ofList Rule.content rules).WellNamed := by
      rw [Value.ofList, Value.wellNamed_list, List.forall_mem_map]
      exact fun r hr => (h r hr).wellNamed_content
    have hprovision (r : Rule) (hr : r ∈ a) (s : Rule) (hs : s ∈ b) :
        r.content.datum = s.content.datum ↔ r.provision = s.provision :=
      Rule.provision_eq_iff (ha r hr).finite (hb s hs).finite
    unfold canonicalText
    rw [Value.canonical_eq_iff (hnamed a ha) (hnamed b hb), Value.ofList, Value.ofList, Value.datum_list,
      Value.datum_list, Datum.list.injEq, List.map_map, List.map_map]
    exact ⟨fun h => Value.map_eq_of_map_eq h fun r hr s hs => (hprovision r hr s hs).mp,
      fun h => Value.map_eq_of_map_eq h fun r hr s hs => (hprovision r hr s hs).mpr⟩
  · intro c h
    have hcontents : a.map Rule.content = c.map Rule.content := by
      clear ha
      induction h with
      | nil => rfl
      | cons hfirst _ ih => rw [List.map_cons, List.map_cons, ih, hfirst]; rfl
    rw [canonicalText, canonicalText, Value.ofList, Value.ofList, hcontents]

end Signature

namespace Sample

/-- Large sums leave out what the gate names by its rate. -/
def gated (label : String) (gate : Value) : Rule :=
  Baseline.rule "rule_apr" label .hard 5 (Baseline.compare "amount" .gt (.int 100))
    ⟨.exclude, none, some "apr", gate, none, none, "Costly"⟩

theorem gated_expressible {label : String} {gate : Value} (hwritable : gate.writeErrors Value.depthLimit = [])
    (hfinite : gate.isFinite = true) (hdistinct : ∀ object ∈ gate.names, (object.map Text.points).Nodup) :
    (gated label gate).Expressible := by
  have hvalues : (gated label gate).freeValues = [.int 100, gate] := rfl
  refine ⟨hwritable, ?_, ?_⟩
  · rw [hvalues, List.forall_mem_cons, List.forall_mem_singleton]
    exact ⟨rfl, hfinite⟩
  · rw [hvalues, List.forall_mem_cons, List.forall_mem_singleton]
    exact ⟨by simp [Value.names, Value.int], hdistinct⟩

end Sample

namespace Signature

/-- The order of members and the label do not matter, a point behind a whole number does. -/
theorem canonicalText_of_gated :
    canonicalText [Sample.gated "A" (.object [("gte", .int 20), ("lte", .int 30)])] =
        canonicalText [Sample.gated "B" (.object [("lte", .int 30), ("gte", .int 20)])] ∧
      canonicalText [Sample.gated "A" (.object [("gte", .int 20), ("lte", .int 30)])] ≠
        canonicalText [Sample.gated "A" (.object [("gte", .float 20), ("lte", .int 30)])] := by
  have hfirst : ∀ r ∈ [Sample.gated "A" (.object [("gte", .int 20), ("lte", .int 30)])], r.Expressible :=
    List.forall_mem_singleton.mpr (Sample.gated_expressible (by decide) (by decide) (by decide))
  have hsecond : ∀ r ∈ [Sample.gated "B" (.object [("lte", .int 30), ("gte", .int 20)])], r.Expressible :=
    List.forall_mem_singleton.mpr (Sample.gated_expressible (by decide) (by decide) (by decide))
  have hthird : ∀ r ∈ [Sample.gated "A" (.object [("gte", .float 20), ("lte", .int 30)])], r.Expressible :=
    List.forall_mem_singleton.mpr (Sample.gated_expressible (by decide) (by decide) (by decide))
  refine ⟨(canonicalText_eq_iff hfirst hsecond).1.mpr ?_, fun h => ?_⟩
  · have hgate : Value.datum (.object [("gte", .int 20), ("lte", .int 30)]) =
        Value.datum (.object [("lte", .int 30), ("gte", .int 20)]) := by
      rw [Value.datum_object, Value.datum_object]
      exact congrArg Datum.object (funext (Value.lookup_perm (by decide) (List.Perm.swap _ _ _)))
    simp only [Sample.gated, Baseline.rule, Rule.provision, Action.effect, List.map_cons, List.map_nil, hgate]
  · have hsame := (canonicalText_eq_iff hfirst hthird).1.mp h
    have hgate : Value.datum (.object [("gte", .int 20), ("lte", .int 30)]) =
        Value.datum (.object [("gte", .float 20), ("lte", .int 30)]) :=
      congrArg (fun p => p.effect.propertyValue) (List.cons.inj hsame).1
    have hlow := congrFun (Datum.object.inj hgate) (Text.units "gte")
    cases hlow

end Signature

end WalletRouting
