import WalletRouting.Proofs.Audit.Reading
import WalletRouting.Proofs.Run.Degradation
import WalletRouting.Proofs.Run.Payment
import WalletRouting.Proofs.Score.Scale

/-! # The record that a run makes

A run makes a record that could as well have been read. Every row comes from a table, which keeps scores on the scale,
and the weights from those that were made to sum to one. The names under which the record keeps something are those of a
child in the wallet, and the tags of a span.
-/
namespace WalletRouting
set_option autoImplicit false

open Schema Schema.Checked

theorem Weights.nonneg_of_normalize {w v : Weights} (h : w.normalize = .ok v) (c : Criterion) : 0 ≤ v.get c := by
  rw [normalize_eq] at h
  split at h
  · cases h
    exact (balanced_fractions c).1
  · exact nonneg_of_read h c

namespace ScoreTable

variable {t : Transaction} {u : User} {s : Guidance} {assessments : Keyed RiskAssessment}
  {forced : Option String}

theorem onScale_ofInstruments {instruments : List Instrument} {table : ScoreTable}
    (h : ofInstruments instruments t u s assessments forced = .ok table) : ∀ r ∈ table.rows, r.OnScale := by
  intro r hr
  have hfinal := ((scaled_of_ofInstruments h).rows r hr).final
  exact ⟨hfinal.low, hfinal.high⟩

end ScoreTable

theorem Resolution.resolve_onScale {r : RoutingCredential} {t : Transaction} {u : User} {s : Guidance}
    {limits : GivenLimits} {now : Value} {g : Generator} {resolved : Resolved}
    (h : (resolve r t u s limits now g).1 = .ok resolved) : ∀ row ∈ resolved.resolution.rows, row.OnScale := by
  obtain ⟨first, rest, table, hsettled⟩ := exists_settled h
  rw [hsettled.rows]
  exact ScoreTable.onScale_ofInstruments hsettled.scored

/-- What of a run goes into its record as it is. -/
structure Run.Recordable (r : Run) : Prop where
  resolved : ∀ x, r.resolved = some x → ∀ row ∈ x.resolution.rows, row.OnScale
  spans : ∀ span ∈ r.spans, span.tags.keys = Span.tagNames

namespace Run.Recordable

theorem initial (t : Transaction) (g : Generator) : (Run.initial t g).Recordable where
  resolved x h := by cases h
  spans span h := by cases h

variable {e : Engine} {j : Job} {s : Stage} {r r' : Run} {w w' : World} {result : StageResult}

theorem runStage (h : r.Recordable) (hrun : e.runStage j s r w = (result, r', w')) : r'.Recordable where
  resolved x hx := by
    rcases Engine.resolved_of_runStage hrun hx with hbefore | ⟨-, router, now, g, -, hresolves⟩
    · exact h.resolved x hbefore
    · exact Resolution.resolve_onScale hresolves
  spans := by
    obtain ⟨span, -, -, -, hspans, -, htags⟩ := Engine.runStage_recorded hrun
    rw [hspans]
    exact List.forall_mem_append.mpr ⟨h.spans, List.forall_mem_singleton.mpr htags⟩

variable {σ : Type} {t : Transaction} {u : User} {observer : Observer σ} {kept kept' : σ}

theorem of_run {result : RunResult} (hrun : e.run t u observer kept w = (.ok result, kept', w')) :
    result.run.Recordable := Engine.run_induction (P := fun _ r => r.Recordable) initial runStage hrun

end Run.Recordable

/-! ## Names in a wallet -/

/-- The names under which the children in a wallet keep rewards and metadata. -/
def User.childNameLists (u : User) : List (List String) :=
  u.routingCredentials.flatMap fun router => router.children.flatMap fun c => c.toTerms.nameLists

theorem User.forall_childNameLists {u : User} {P : List String → Prop} :
    (∀ names ∈ u.childNameLists, P names) ↔
      ∀ router ∈ u.routingCredentials, ∀ c ∈ router.children, ∀ names ∈ c.toTerms.nameLists, P names := by
  unfold childNameLists
  simp only [List.mem_flatMap]
  exact ⟨fun h router hr c hc names hn => h names ⟨router, hr, c, hc, hn⟩,
    fun h names ⟨router, hr, c, hc, hn⟩ => h router hr c hc names hn⟩

section Reading

variable {N : List String → Prop} {v : Value}

theorem RoutingCredential.read_ensures (hv : v.EachObject N) (hempty : N []) :
    (read v).Ensures fun r => ∀ c ∈ r.children, ∀ names ∈ c.toTerms.nameLists, N names := by
  refine ensures_record fun m hm => ?_
  subst hm
  refine .seq_any ?_
  refine .seq ?_ (ensures_optional hv (fun w hw => ensures_listOf hw fun x hx => Credential.read_ensures hx hempty)
    "children" nofun)
  refine .seq_any ?_
  exact ensures_map fun _ _ _ hchildren _ => hchildren

theorem User.read_ensures (hv : v.EachObject N) (hempty : N []) :
    (read v).Ensures fun u => ∀ names ∈ u.childNameLists, N names := by
  simp only [forall_childNameLists]
  refine ensures_record fun m hm => ?_
  subst hm
  iterate 5 refine .seq_any ?_
  refine .seq ?_ (ensures_optional hv
    (fun w hw => ensures_listOf hw fun x hx => RoutingCredential.read_ensures hx hempty) "routing_credentials" nofun)
  iterate 2 refine .seq_any ?_
  exact ensures_map fun _ _ _ _ hrouters _ _ _ _ _ => hrouters

end Reading

/-! ## The record -/

namespace Engine

variable {σ : Type} {e : Engine} {t : Transaction} {u : User} {observer : Observer σ} {kept kept' : σ} {w w' : World}
  {result : RunResult}

theorem run_inBounds (hrun : e.run t u observer kept w = (.ok result, kept', w')) : result.audit.InBounds := by
  have hrecordable := Run.Recordable.of_run hrun
  obtain ⟨j, weights, audited, -, -, rfl, -, -, hfindings, hweights, haudit⟩ := run_ok hrun
  obtain ⟨table, htable, hscored⟩ := hfindings.exists_table hweights
  have hrows : result.audit.rows = table.rows := by rw [haudit, auditOf, htable]
  have htableRows := ScoreTable.onScale_ofInstruments hscored
  have hused : table.weights = weights := by
    rw [weightsUsed, htable] at hweights
    exact Checked.ok.inj hweights
  constructor
  · unfold AuditRecord.allRows
    simp only [List.forall_mem_append, List.mem_flatMap, Option.mem_toList]
    refine ⟨⟨?_, ?_⟩, ?_⟩
    · rwa [hrows]
    · have hcandidates : result.audit.candidates = result.audit.rows.filter fun row => !row.excluded := by rw [haudit]; rfl
      rw [hcandidates, hrows]
      exact fun row hrow => htableRows row (List.mem_filter.mp hrow).1
    · rintro row ⟨s, hs, hrow⟩
      rw [haudit] at hs
      obtain ⟨x, hx, rfl⟩ := Option.map_eq_some_iff.mp hs
      split at hx
      · exact hrecordable.resolved x hx row hrow
      · cases hx
  · rw [haudit]
    change ∀ c, 0 ≤ weights.get c
    rw [← hused]
    exact Weights.nonneg_of_normalize (ScoreTable.normalize_of_ok hscored)

theorem run_nameLists {N : List String → Prop} (hrun : e.run t u observer kept w = (.ok result, kept', w'))
    (hchildren : ∀ names ∈ u.childNameLists, N names) (htags : N Span.tagNames) :
    ∀ names ∈ result.audit.nameLists, N names := by
  have hrecordable := Run.Recordable.of_run hrun
  have hpayment := Payment.of_run hrun
  obtain ⟨j, weights, audited, -, -, rfl, -, -, hfindings, hweights, haudit⟩ := run_ok hrun
  obtain ⟨table, htable, -⟩ := hfindings.exists_table hweights
  obtain ⟨-, hselected⟩ := hfindings.selected (by decide) table htable
  rw [User.forall_childNameLists] at hchildren
  refine AuditRecord.forall_nameLists.mpr ⟨?_, ?_⟩
  · intro s hs
    rw [haudit] at hs
    obtain ⟨x, hx, rfl⟩ := Option.map_eq_some_iff.mp hs
    split at hx
    · obtain ⟨-, router, hrouter, hchild⟩ := hpayment.resolved x hx
      have hheld : router ∈ j.user.routingCredentials := by
        have hmem := (Work.mem_of_instrument? (hselected.symm.trans hrouter)).1
        simpa [Job.instruments, User.instruments] using hmem
      exact hchildren router hheld x.resolution.child (List.mem_filter.mp hchild).1
    · cases hx
  · intro span hspan
    rw [haudit] at hspan
    rw [hrecordable.spans span hspan]
    exact htags

end Engine

end WalletRouting
