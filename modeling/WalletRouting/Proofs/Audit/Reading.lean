import WalletRouting.Proofs.Audit.Writing
import WalletRouting.Proofs.Schema.Ensuring

/-! # Records that were read

A record that was read is in bounds, and keeps its maps under the names under which they came.
-/
namespace WalletRouting
set_option autoImplicit false

open Schema Schema.Checked

variable {N : List String → Prop} {v : Value}

theorem ScoreRow.read_ensures (v : Value) : (read v).Ensures OnScale := by
  have hscale (v : Value) (_ : v.EachObject fun _ => True) :
      (doubleWithin 0 100 v).Ensures fun x => 0 ≤ x ∧ x ≤ 100 := ensures_doubleWithin 0 100 v
  refine ensures_record fun m _ => ?_
  iterate 4 refine .seq_any ?_
  refine .seq ?_ (ensures_optional (fun _ _ => trivial) hscale "final_score" (by decide))
  iterate 7 refine .seq_any ?_
  exact ensures_map fun _ _ _ _ _ _ _ _ _ hfinal _ _ _ _ => hfinal

theorem Span.read_ensures (hv : v.EachObject N) (hempty : N []) : (read v).Ensures fun s => N s.tags.keys := by
  refine ensures_record fun m hm => ?_
  subst hm
  refine .seq_any ?_
  refine .seq ?_ (ensures_optional hv (fun _ => ensures_mapOf) "tags" hempty)
  iterate 4 refine .seq_any ?_
  exact ensures_map fun _ _ _ _ _ _ htags _ => htags

theorem Terms.read_ensures {m : Keyed Value} (hm : (Value.object m).EachObject N) (hempty : N []) :
    (readFrom m).Ensures fun t => ∀ names ∈ t.nameLists, N names := by
  refine .seq ?_ (ensures_optional hm (fun _ => ensures_mapOf) "metadata" hempty)
  iterate 3 refine .seq_any ?_
  refine .seq ?_ (ensures_optional hm (fun _ => ensures_mapOf) "rewards_by_category" hempty)
  iterate 9 refine .seq_any ?_
  refine ensures_map fun _ _ _ _ _ _ _ _ _ _ _ hrewards _ _ _ _ hmetadata => ?_
  rw [nameLists, List.forall_mem_cons, List.forall_mem_singleton]
  exact ⟨hrewards, hmetadata⟩

theorem Credential.read_ensures (hv : v.EachObject N) (hempty : N []) :
    (read v).Ensures fun c => ∀ names ∈ c.toTerms.nameLists, N names := by
  refine ensures_record fun m hm => ?_
  subst hm
  refine .seq_any ?_
  exact (Terms.read_ensures hv hempty).map fun _ hterms _ => hterms

theorem Resolution.read_ensures (hv : v.EachObject N) (hempty : N []) :
    (read v).Ensures fun r =>
      (∀ names ∈ r.child.toTerms.nameLists, N names) ∧ ∀ row ∈ r.rows, row.OnScale := by
  refine ensures_record fun m hm => ?_
  subst hm
  iterate 2 refine .seq_any ?_
  refine .seq ?_ (ensures_optional hv (fun w hw => ensures_listOf hw fun u _ => ScoreRow.read_ensures u)
    "child_scores" nofun)
  refine .seq ?_ (ensures_required hv (fun w hw => Credential.read_ensures hw hempty) "selected_child")
  exact ensures_map fun _ _ hnames _ hrows _ _ => ⟨hnames, hrows⟩

theorem AuditRecord.read_ensures (hv : v.EachObject N) (hempty : N []) :
    (read v).Ensures fun r => r.InBounds ∧ ∀ names ∈ r.nameLists, N names := by
  have hrows (w : Value) (hw : w.EachObject N) : (listOf ScoreRow.read w).Ensures fun rows => ∀ r ∈ rows, r.OnScale :=
    ensures_listOf hw fun u _ => ScoreRow.read_ensures u
  have hspans (w : Value) (hw : w.EachObject N) :
      (listOf Span.read w).Ensures fun spans => ∀ s ∈ spans, N s.tags.keys :=
    ensures_listOf hw fun u hu => Span.read_ensures hu hempty
  have hweights (w : Value) (_ : w.EachObject N) : (Weights.read w).Ensures fun x => ∀ c, 0 ≤ x.get c :=
    fun _ hx => Weights.nonneg_of_read hx
  refine ensures_record fun m hm => ?_
  subst hm
  iterate 2 refine .seq_any ?_
  refine .seq ?_ (ensures_required hv hspans "spans")
  iterate 7 refine .seq_any ?_
  refine .seq ?_ (ensures_required hv hrows "candidate_scores")
  refine .seq ?_ (ensures_required hv hrows "score_breakdown")
  refine .seq ?_ (ensures_required hv hweights "weights_used")
  iterate 4 refine .seq_any ?_
  refine .seq ?_ (ensures_optional hv (fun w hw => ensures_nullable (Resolution.read_ensures hw hempty))
    "drt_resolution" nofun)
  iterate 14 refine .seq_any ?_
  refine ensures_map fun _ _ _ _ _ _ _ _ _ _ _ _ _ _ _ resolution hresolution _ _ _ _ weights hweights rows hrows
    candidates hcandidates _ _ _ _ _ _ _ spans hspans _ _ => ⟨⟨?_, hweights⟩, ?_⟩
  · unfold allRows
    simp only [List.forall_mem_append, List.mem_flatMap, Option.mem_toList]
    exact ⟨⟨hrows, hcandidates⟩, fun row ⟨s, hs, hrow⟩ => (hresolution s hs).2 row hrow⟩
  · exact forall_nameLists.mpr ⟨fun s hs => (hresolution s hs).1, hspans⟩

end WalletRouting
