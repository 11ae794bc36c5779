import WalletRouting.Audit.Record
import WalletRouting.Proofs.Schema.Writing
import WalletRouting.Proofs.Score.Weights
import WalletRouting.Proofs.Value.Parts

/-! # What comes back of an audit record

Each record that an audit record consists of is read back from what is written of it, and so is the whole, if it is
within the bounds that reading checks. What comes back is the record as it was written: names are mended, and a number of
the metadata that is not finite is null.
-/
namespace WalletRouting
set_option autoImplicit false

open Schema

/-! ## Words -/

theorem LogLevel.member_name (l : LogLevel) : member named .unknownLiteral (.text l.name) = .ok l :=
  member_text (by cases l <;> decide) (by cases l <;> rfl)

theorem StageStatus.member_name (s : StageStatus) : member named .unknownMember (.text s.name) = .ok s :=
  member_text (by cases s <;> decide) (by cases s <;> rfl)

theorem RuleType.member_name (t : RuleType) : member named .unknownMember (.text t.name) = .ok t :=
  member_text (by cases t <;> decide) (by cases t <;> rfl)

theorem Severity.member_name (s : Severity) : member named .unknownLiteral (.text s.name) = .ok s :=
  member_text (by cases s <;> decide) (by cases s <;> rfl)

theorem Network.member_name (n : Network) : member named .unknownMember (.text n.name) = .ok n :=
  member_text (by cases n <;> decide) (by cases n <;> rfl)

theorem CardKind.member_name (k : CardKind) : member named .unknownLiteral (.text k.name) = .ok k :=
  member_text (by cases k <;> decide) (by cases k <;> rfl)

/-! ## Traces -/

theorem StageFault.read_toValue (f : StageFault) : read f.toValue = .ok f := by
  simp [read, toValue, record, required, Schema.optional, Keyed.get?]

theorem LogEntry.read_toValue (e : LogEntry) : read e.toValue = .ok e := by
  simp [read, toValue, record, required, Schema.optional, Keyed.get?, LogLevel.member_name]

theorem StageTiming.read_toValue (t : StageTiming) : read t.toValue = .ok t := by
  simp [read, toValue, record, required, Keyed.get?]

def Span.asWritten (s : Span) : Span := { s with tags := s.tags.mended }

theorem Span.read_toValue (s : Span) : read s.toValue = .ok s.asWritten := by
  have htags : mapOf text (.ofNames .text s.tags) = .ok s.tags.mended := mapOf_ofNames text_text s.tags
  have hlogs : listOf LogEntry.read (.ofList LogEntry.toValue s.logs) = .ok s.logs :=
    listOf_self fun e _ => e.read_toValue
  simp [read, toValue, record, required, Schema.optional, Keyed.get?, Window.readFrom, Window.members,
    StageStatus.member_name, htags, hlogs, asWritten]

/-! ## Rulings -/

theorem RuleOutcome.read_toValue (o : RuleOutcome) : read o.toValue = .ok o := by
  simp [read, toValue, record, required, Schema.optional, Keyed.get?, RuleType.member_name]

theorem Overridden.read_toValue (o : Overridden) : read o.toValue = .ok o := by
  simp [read, toValue, record, required, Schema.optional, Keyed.get?, Severity.member_name]

theorem Exclusion.read_toValue (e : Exclusion) : read e.toValue = .ok e := by
  simp [read, toValue, record, required, Schema.optional, Keyed.get?]

/-! ## Scores -/

theorem Subscore.read_toValue (s : Subscore) : read s.toValue = .ok s := by
  simp [read, toValue, record, Schema.optional, Keyed.get?]

theorem Subscores.read_toValue (s : Subscores) : read s.toValue = .ok s := by
  simp [read, toValue, record, required, Keyed.get?, Subscore.read_toValue]

theorem Adjustment.read_toValue (a : Adjustment) : read a.toValue = .ok a := by
  simp [read, toValue, record, required, Schema.optional, Keyed.get?]

/-- A final score lies on the scale. -/
def ScoreRow.OnScale (r : ScoreRow) : Prop := 0 ≤ r.final ∧ r.final ≤ 100

theorem ScoreRow.read_toValue {r : ScoreRow} (h : r.OnScale) : read r.toValue = .ok r := by
  have hfinal : doubleWithin 0 100 (.float r.final) = .ok r.final := doubleWithin_float h.1 h.2
  have hadjustments (as : List Adjustment) : listOf Adjustment.read (.ofList Adjustment.toValue as) = .ok as :=
    listOf_self fun a _ => a.read_toValue
  simp [read, toValue, record, required, Schema.optional, Keyed.get?, Subscores.read_toValue, hfinal, hadjustments]

theorem ScoreRow.listOf_toValue {rows : List ScoreRow} (h : ∀ r ∈ rows, r.OnScale) :
    listOf read (.ofList toValue rows) = .ok rows := listOf_self fun r hr => read_toValue (h r hr)

/-! ## Resolutions -/

theorem SignupBonus.read_toValue (b : SignupBonus) : read b.toValue = .ok b := by
  simp [read, toValue, record, required, Keyed.get?]

def Terms.asWritten (t : Terms) : Terms :=
  { t with
    rewards := t.rewards.mended
    metadata := Keyed.mended (t.metadata.map fun p => (p.1, p.2.finitePart)) }

def Credential.asWritten (c : Credential) : Credential := { c with toTerms := c.toTerms.asWritten }

theorem Credential.read_toValue (c : Credential) : read c.toValue = .ok c.asWritten := by
  have hrewards : mapOf double (.ofNames .float c.rewards) = .ok c.rewards.mended := mapOf_ofNames double_float c.rewards
  have hmetadata : mapOf anything (.ofNames Value.finitePart c.metadata) = .ok c.toTerms.asWritten.metadata := by
    rw [← Function.id_comp Value.finitePart, ← ofNames_map]
    exact mapOf_ofNames (fun _ => rfl) _
  have hbonus : nullable SignupBonus.read (.ofOption SignupBonus.toValue c.signupBonus) = .ok c.signupBonus :=
    nullable_self SignupBonus.read_toValue (fun _ => nofun) c.signupBonus
  simp [read, toValue, record, required, Schema.optional, Keyed.get?, Terms.readFrom, Terms.members,
    Network.member_name, CardKind.member_name, hrewards, hmetadata, hbonus, asWritten, Terms.asWritten]

def Resolution.asWritten (r : Resolution) : Resolution := { r with child := r.child.asWritten }

theorem Resolution.read_toValue {r : Resolution} (h : ∀ row ∈ r.rows, row.OnScale) :
    read r.toValue = .ok r.asWritten := by
  simp [read, toValue, record, required, Schema.optional, Keyed.get?, Credential.read_toValue,
    ScoreRow.listOf_toValue h, asWritten]

/-! ## The whole record -/

theorem Authorization.read_toValue (a : Authorization) : read a.toValue = .ok a := by
  simp [read, toValue, members, record, required, Schema.optional, Keyed.get?]

theorem Selection.read_toValue (s : Selection) : read s.toValue = .ok s := by
  cases s <;> simp [read, toValue, readForced, readAuto, required, Schema.optional, Keyed.get?]

theorem Shadow.read_toValue (s : Shadow) : read s.toValue = .ok s := by
  simp [read, toValue, record, required, Keyed.get?]

namespace AuditRecord

def asWritten (r : AuditRecord) : AuditRecord :=
  { r with
    resolution := r.resolution.map Resolution.asWritten
    spans := r.spans.map Span.asWritten }

/-- All rows of a record. -/
def allRows (r : AuditRecord) : List ScoreRow :=
  r.rows ++ r.candidates ++ r.resolution.toList.flatMap fun s => s.rows

/-- What reading checks: scores on the scale, and no weight below zero. -/
structure InBounds (r : AuditRecord) : Prop where
  rows : ∀ row ∈ r.allRows, row.OnScale
  weights : ∀ c, 0 ≤ r.weights.get c

theorem read_toValue {r : AuditRecord} (h : r.InBounds) : read r.toValue = .ok r.asWritten := by
  have hweights : Weights.read r.weights.toValue = .ok r.weights := Weights.validate_of_nonneg h.weights
  have hrows : listOf ScoreRow.read (.ofList ScoreRow.toValue r.rows) = .ok r.rows :=
    ScoreRow.listOf_toValue fun row hrow => h.rows row (List.mem_append_left _ (List.mem_append_left _ hrow))
  have hcandidates : listOf ScoreRow.read (.ofList ScoreRow.toValue r.candidates) = .ok r.candidates :=
    ScoreRow.listOf_toValue fun row hrow => h.rows row (List.mem_append_left _ (List.mem_append_right _ hrow))
  have hresolution : nullable Resolution.read (.ofOption Resolution.toValue r.resolution) =
      .ok (r.resolution.map Resolution.asWritten) :=
    nullable_ofOption (fun _ => nofun) fun s hs => Resolution.read_toValue fun row hrow =>
      h.rows row (List.mem_append_right _ (List.mem_flatMap.mpr ⟨s, Option.mem_toList.mpr hs, hrow⟩))
  have hshadow : nullable Shadow.read (.ofOption Shadow.toValue r.shadow) = .ok r.shadow :=
    nullable_self Shadow.read_toValue (fun _ => nofun) r.shadow
  have hauthorization : nullable Authorization.read (.ofOption Authorization.toValue r.authorization) =
      .ok r.authorization := nullable_self Authorization.read_toValue (fun _ => nofun) r.authorization
  have houtcomes (os : List RuleOutcome) : listOf RuleOutcome.read (.ofList RuleOutcome.toValue os) = .ok os :=
    listOf_self fun o _ => o.read_toValue
  have hexclusions : listOf Exclusion.read (.ofList Exclusion.toValue r.exclusions) = .ok r.exclusions :=
    listOf_self fun e _ => e.read_toValue
  have hoverridden : listOf Overridden.read (.ofList Overridden.toValue r.overridden) = .ok r.overridden :=
    listOf_self fun o _ => o.read_toValue
  have htimings : listOf StageTiming.read (.ofList StageTiming.toValue r.timings) = .ok r.timings :=
    listOf_self fun t _ => t.read_toValue
  have hspans : listOf Span.read (.ofList Span.toValue r.spans) = .ok (r.spans.map Span.asWritten) :=
    listOf_ofList fun s _ => s.read_toValue
  have herrors : listOf StageFault.read (.ofList StageFault.toValue r.errors) = .ok r.errors :=
    listOf_self fun f _ => f.read_toValue
  simp [read, toValue, record, required, Schema.optional, Keyed.get?, Selection.read_toValue, hresolution, hshadow,
    hauthorization, hweights, hrows, hcandidates, houtcomes, hexclusions, hoverridden, htimings, hspans, herrors,
    asWritten]

end AuditRecord

/-! ## Records that come back unchanged -/

/-- The names under which a credential keeps rewards and metadata. -/
def Terms.nameLists (t : Terms) : List (List String) := [t.rewards.keys, t.metadata.keys]

/-- The names under which a record keeps something: rewards and metadata of a child, and tags. -/
def AuditRecord.nameLists (r : AuditRecord) : List (List String) :=
  (r.resolution.toList.flatMap fun s => s.child.toTerms.nameLists) ++ r.spans.map fun s => s.tags.keys

/-- Different names, each spelled as its points are. -/
def Distinct (names : List String) : Prop := names.Nodup ∧ ∀ name ∈ names, Text.IsSpelled name

def Whole (names : List String) : Prop := ∀ name ∈ names, Text.isWhole name = true

instance (names : List String) : Decidable (Distinct names) :=
  inferInstanceAs (Decidable (names.Nodup ∧ ∀ name ∈ names, Text.IsSpelled name))

instance (names : List String) : Decidable (Whole names) :=
  inferInstanceAs (Decidable (∀ name ∈ names, Text.isWhole name = true))

theorem Keyed.mended_of_distinct {α : Type} {m : Keyed α} (h : Distinct m.keys) (hwhole : Whole m.keys) :
    m.mended = m := mended_of_whole h.1 h.2 hwhole

namespace Terms

variable {t : Terms}

theorem whole_asWritten (t : Terms) : ∀ names ∈ t.asWritten.nameLists, Whole names := by
  rw [nameLists, List.forall_mem_cons, List.forall_mem_singleton]
  exact ⟨fun _ => Keyed.isWhole_of_mem_mended, fun _ => Keyed.isWhole_of_mem_mended⟩

theorem asWritten_eq (hnames : ∀ names ∈ t.nameLists, Distinct names ∧ Whole names)
    (hfinite : ∀ p ∈ t.metadata, p.2.isFinite = true) : t.asWritten = t := by
  rw [nameLists, List.forall_mem_cons, List.forall_mem_singleton] at hnames
  have hmetadata : (t.metadata.map fun p => (p.1, p.2.finitePart)) = t.metadata := by
    conv_rhs => rw [← List.map_id t.metadata]
    exact List.map_congr_left fun p hp => by
      rw [Value.finitePart_of_isFinite (hfinite p hp)]
      rfl
  rw [asWritten, hmetadata, Keyed.mended_of_distinct hnames.1.1 hnames.1.2,
    Keyed.mended_of_distinct hnames.2.1 hnames.2.2]

end Terms

namespace AuditRecord

variable {r : AuditRecord}

theorem forall_nameLists {P : List String → Prop} : (∀ names ∈ r.nameLists, P names) ↔
    (∀ s ∈ r.resolution, ∀ names ∈ s.child.toTerms.nameLists, P names) ∧ ∀ s ∈ r.spans, P s.tags.keys := by
  unfold nameLists
  simp only [List.forall_mem_append, List.mem_flatMap, List.forall_mem_map, Option.mem_toList]
  exact and_congr ⟨fun h s hs names hn => h names ⟨s, hs, hn⟩, fun h names ⟨s, hs, hn⟩ => h s hs names hn⟩ Iff.rfl

theorem whole_asWritten (r : AuditRecord) : ∀ names ∈ r.asWritten.nameLists, Whole names := by
  refine forall_nameLists.mpr ⟨fun s hs => ?_, fun s hs => ?_⟩
  · obtain ⟨s, -, rfl⟩ := Option.mem_map.mp hs
    exact Terms.whole_asWritten s.child.toTerms
  · obtain ⟨s, -, rfl⟩ := List.mem_map.mp hs
    exact fun _ => Keyed.isWhole_of_mem_mended

theorem asWritten_eq_iff (hnames : ∀ names ∈ r.nameLists, Distinct names)
    (hfinite : ∀ s ∈ r.resolution, ∀ p ∈ s.child.metadata, p.2.isFinite = true) :
    r.asWritten = r ↔ ∀ names ∈ r.nameLists, Whole names := by
  constructor
  · intro h
    rw [← h]
    exact whole_asWritten r
  · intro hwhole
    have hboth := fun names hn => And.intro (hnames names hn) (hwhole names hn)
    rw [forall_nameLists] at hboth
    have hresolution : r.resolution.map Resolution.asWritten = r.resolution := by
      cases hr : r.resolution with
      | none => rfl
      | some s =>
        rw [Option.map_some, Resolution.asWritten, Credential.asWritten,
          Terms.asWritten_eq (hboth.1 s hr) (hfinite s hr)]
    have hspans : r.spans.map Span.asWritten = r.spans := by
      conv_rhs => rw [← List.map_id r.spans]
      refine List.map_congr_left fun s hs => ?_
      rw [Span.asWritten, Keyed.mended_of_distinct (hboth.2 s hs).1 (hboth.2 s hs).2, id]
    rw [asWritten, hresolution, hspans]

end AuditRecord

end WalletRouting
