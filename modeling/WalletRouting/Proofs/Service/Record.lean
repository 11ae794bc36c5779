import WalletRouting.Proofs.Run.Record
import WalletRouting.Proofs.Run.Signing
import WalletRouting.Proofs.Run.Timeline
import WalletRouting.Proofs.Service.Request

/-! # Records sent to and fro

A reply to a purchase shows the record of its run. Whoever sends two such records back has them compared: what is
compared is what was recorded, but for names that were mended on the way, and no difference depends on those.
-/
namespace WalletRouting
set_option autoImplicit false

open Schema Schema.Checked

namespace AuditRecord

/-- Whether no number in the record is infinite, or not a number. -/
def isFinite (r : AuditRecord) : Bool :=
  r.toValue.isFinite && r.resolution.all fun s => s.child.metadata.all fun p => p.2.isFinite

theorem finite_toValue {r : AuditRecord} (h : r.isFinite = true) : r.toValue.isFinite = true :=
  (Bool.and_eq_true_iff.mp h).1

theorem finite_metadata {r : AuditRecord} (h : r.isFinite = true) :
    ∀ s ∈ r.resolution, ∀ p ∈ s.child.metadata, p.2.isFinite = true := by
  intro s hs
  have hall := (Bool.and_eq_true_iff.mp h).2
  rw [Option.mem_def.mp hs, Option.all_some] at hall
  exact List.all_eq_true.mp hall

end AuditRecord

/-! ## Whole parts of what is told -/

theorem LogEntry.isWhole_toValue (e : LogEntry) :
    e.toValue.isWhole = ({ e with message := "" }.toValue.isWhole && Text.isWhole e.message) := by
  have hempty : Text.isWhole "" = true := by decide
  simp [toValue, Value.isWhole, hempty]
  ac_rfl

theorem StageResult.isWhole_toValue (r : StageResult) :
    r.toValue.isWhole = ({ r with logs := [] }.toValue.isWhole && r.logs.all fun e => e.toValue.isWhole) := by
  simp [toValue, Value.ofList, Value.isWhole, Function.comp_def]
  ac_rfl

theorem Span.isWhole_toValue (s : Span) :
    s.toValue.isWhole = ({ s with logs := [] }.toValue.isWhole && s.logs.all fun e => e.toValue.isWhole) := by
  simp [toValue, Value.ofList, Value.isWhole, Function.comp_def]
  ac_rfl

theorem Trace.isWhole_toValue (t : Trace) :
    t.toValue.isWhole = ({ t with spans := [], results := [] }.toValue.isWhole &&
      (t.spans.all (fun s => s.toValue.isWhole) && t.results.all fun r => r.toValue.isWhole)) := by
  simp [toValue, Value.ofList, Value.isWhole, Function.comp_def]
  ac_rfl

theorem AuditRecord.isWhole_toValue (r : AuditRecord) :
    r.toValue.isWhole = ({ r with spans := [] }.toValue.isWhole && r.spans.all fun s => s.toValue.isWhole) := by
  simp [toValue, Value.ofList, Value.isWhole, Function.comp_def]
  ac_rfl

/-! ## Records in replies -/

/-- The record in a reply. -/
def Reply.auditRecord? (r : Reply) : Option Value :=
  match r.payload with
  | .json (.object ms) => Keyed.get? "audit_record" ms
  | _ => none

namespace Service

/-- The record of the run in which the service routes the purchase that it is sent, if there is such a run. -/
def recordOf (s : Service) (body : Value) : Option AuditRecord :=
  match taken RouteRequest.read (some body) with
  | .ok q => ((s.engine q.seed).route q.transaction q.user s.world).1.toOption.map fun result => result.audit
  | .error _ => none

/-- The service routes the purchase that it is sent: `r` is the record of the run, and `shown` what the reply shows of
it. -/
structure Emits (s : Service) (q : Request) (r : AuditRecord) (shown : Value) : Prop where
  found : Endpoint.ofRequest q = .found .route
  ran : ∃ body, bodyOf q = .ok (some body) ∧ s.recordOf body = some r
  shown : (s.handle q).1.auditRecord? = some shown

/-- What is sent to have two records compared. -/
def comparison (previous current : Value) : Value := .object [("previous", previous), ("current", current)]

/-- The request is to compare two records, however it is spelled. -/
structure Compares (q : Request) (previous current : Value) : Prop where
  found : Endpoint.ofRequest q = .found .difference
  body : bodyOf q = .ok (some (comparison previous current))

theorem taken_eq_ok {α : Type} {read : Read α} {v : Value} {a : α} : taken read (some v) = .ok a ↔ read v = .ok a := by
  unfold taken
  dsimp only
  cases hread : read v with
  | ok b =>
    change Except.ok b = Except.ok a ↔ _
    simp
  | bad issues =>
    change Except.error _ = Except.ok a ↔ _
    simp

theorem RouteRequest.read_ensures {N : List String → Prop} {v : Value} (hv : v.EachObject N) (hempty : N []) :
    (RouteRequest.read v).Ensures fun q => ∀ names ∈ q.user.childNameLists, N names := by
  refine ensures_record fun m hm => ?_
  subst hm
  refine .seq_any ?_
  refine .seq ?_ (ensures_required hv (fun w hw => User.read_ensures hw hempty) "user")
  exact ensures_map fun _ _ huser _ => huser

variable {s : Service} {q : Request} {body shown : Value} {r : AuditRecord}

/-- The run in which the service routes the purchase that it is sent. -/
def runOf (s : Service) (body : Value) : Option RunResult :=
  match taken RouteRequest.read (some body) with
  | .ok q => ((s.engine q.seed).route q.transaction q.user s.world).1.toOption
  | .error _ => none

theorem recordOf_eq (s : Service) (body : Value) : s.recordOf body = (s.runOf body).map fun result => result.audit := by
  unfold recordOf runOf
  split
  · rfl
  · rfl

theorem exists_runOf (h : s.recordOf body = some r) : ∃ result, s.runOf body = some result ∧ result.audit = r := by
  rw [recordOf_eq] at h
  exact Option.map_eq_some_iff.mp h

theorem runOf_eq_some {result : RunResult} (h : s.runOf body = some result) :
    ∃ q w, RouteRequest.read body = .ok q ∧
      (s.engine q.seed).run q.transaction q.user Observer.silent () s.world = (.ok result, (), w) := by
  unfold runOf at h
  split at h
  · next q hq =>
    unfold Engine.route at h
    rcases hrun : (s.engine q.seed).run q.transaction q.user Observer.silent () s.world with ⟨_ | ran, ⟨⟩, w⟩
    · rw [hrun] at h
      cases h
    · rw [hrun] at h
      cases h
      exact ⟨q, w, taken_eq_ok.mp hq, hrun⟩
  · cases h

theorem recordOf_readable (h : s.recordOf body = some r) (hnames : body.EachObject Distinct) :
    r.InBounds ∧ ∀ names ∈ r.nameLists, Distinct names := by
  obtain ⟨result, hresult, rfl⟩ := exists_runOf h
  obtain ⟨q, w, hq, hrun⟩ := runOf_eq_some hresult
  exact ⟨Engine.run_inBounds hrun, Engine.run_nameLists hrun
    (RouteRequest.read_ensures hnames ⟨List.nodup_nil, nofun⟩ q hq) ⟨by decide, by decide⟩⟩

/-- What a reply tells of a run. -/
def told (result : RunResult) : Value := .object
  [("audit_record", result.audit.toValue), ("trace", result.trace.toValue),
   ("sensitivity", .ofList Nudge.toValue result.sensitivity)]

theorem act_route {result : RunResult} (h : s.runOf body = some result) :
    (s.act .route (some body)).1 = Reply.record 200 result.audit.writeError? (told result) := by
  unfold runOf at h
  unfold act withTaken
  split at h
  · next q hq =>
    rw [hq]
    dsimp only
    unfold route
    rcases hroute : (s.engine q.seed).route q.transaction q.user s.world with ⟨_ | result, w⟩
    · rw [hroute] at h
      cases h
    · rw [hroute] at h
      cases h
      rfl
  · cases h

/-- The spans of a run are those in its record, and say nothing in their logs that the results of its stages do not. -/
theorem spans_runOf {result : RunResult} (h : s.runOf body = some result) :
    result.trace.spans = result.audit.spans ∧
      result.audit.spans.map (·.logs) = result.trace.results.map (·.logs) := by
  obtain ⟨q, w, -, hrun⟩ := runOf_eq_some h
  obtain ⟨j, ended, audited, weights, -, htrace, haudit, htimeline, -⟩ := Engine.run_timeline hrun
  rw [htrace, haudit]
  exact ⟨rfl, htimeline.logs_eq⟩

/-- What is told of a run is whole once everything in it is that is told only once: the record without its spans, the
trace without its spans and results, the spans and the results without their logs, and the logs of the results. -/
theorem isWhole_told {result : RunResult} (h : s.runOf body = some result)
    (haudit : { result.audit with spans := [] }.toValue.isWhole = true)
    (htrace : { result.trace with spans := [], results := [] }.toValue.isWhole = true)
    (hsensitivity : (Value.ofList Nudge.toValue result.sensitivity).isWhole = true)
    (hspans : ∀ span ∈ result.audit.spans, { span with logs := [] }.toValue.isWhole = true)
    (hresults : ∀ r ∈ result.trace.results, { r with logs := [] }.toValue.isWhole = true)
    (hlogs : ∀ r ∈ result.trace.results, ∀ e ∈ r.logs, e.toValue.isWhole = true) : (told result).isWhole = true := by
  obtain ⟨hshared, hsame⟩ := spans_runOf h
  have hspansWhole : (result.audit.spans.all fun span => span.toValue.isWhole) = true := by
    rw [List.all_eq_true]
    intro span hspan
    obtain ⟨r, hr, hsaid⟩ := List.mem_map.mp (hsame ▸ List.mem_map_of_mem hspan)
    rw [Span.isWhole_toValue, hspans span hspan, Bool.true_and, List.all_eq_true, ← hsaid]
    exact hlogs r hr
  have hresultsWhole : (result.trace.results.all fun r => r.toValue.isWhole) = true := by
    rw [List.all_eq_true]
    intro r hr
    rw [StageResult.isWhole_toValue, hresults r hr, Bool.true_and, List.all_eq_true]
    exact hlogs r hr
  have hrecord : result.audit.toValue.isWhole = true := by
    rw [AuditRecord.isWhole_toValue, haudit, hspansWhole, Bool.true_and]
  have htraced : result.trace.toValue.isWhole = true := by
    rw [Trace.isWhole_toValue, htrace, hshared, hspansWhole, hresultsWhole, Bool.true_and, Bool.true_and]
  have hnames : ["audit_record", "trace", "sensitivity"].all Text.isWhole = true := by decide +kernel
  simp only [List.all_cons, List.all_nil, Bool.and_true, Bool.and_eq_true] at hnames
  simp only [told, Value.isWhole, Value.membersWhole_eq, List.all_cons, List.all_nil, hnames, hrecord, htraced,
    hsensitivity, Bool.and_true]

namespace Emits

theorem shown_eq (h : s.Emits q r shown) : shown = r.toValue.finitePart ∧ r.writeError? = none := by
  obtain ⟨body, hbody, hran⟩ := h.ran
  obtain ⟨result, hresult, rfl⟩ := exists_runOf hran
  have hshown := h.shown
  rw [handle_of_found h.found rfl rfl hbody, act_route hresult] at hshown
  unfold Reply.record Reply.json at hshown
  split at hshown
  · cases hshown
  · next hwritable =>
    split at hshown
    · exact ⟨(Option.some.inj hshown).symm, Option.not_isSome_iff_eq_none.mp hwritable⟩
    · cases hshown

theorem shown_eq_of_finite (h : s.Emits q r shown) (hfinite : r.isFinite = true) : shown = r.toValue := by
  rw [h.shown_eq.1, Value.finitePart_of_isFinite (AuditRecord.finite_toValue hfinite)]

theorem of_whole {result : RunResult} (hfound : Endpoint.ofRequest q = .found .route) (hbody : bodyOf q = .ok (some body))
    (hresult : s.runOf body = some result) (hwritable : result.audit.writeError? = none)
    (hwhole : (told result).isWhole = true) : s.Emits q result.audit result.audit.toValue.finitePart := by
  refine ⟨hfound, ⟨body, hbody, by rw [recordOf_eq, hresult]; rfl⟩, ?_⟩
  rw [handle_of_found hfound rfl rfl hbody, act_route hresult, hwritable]
  unfold Reply.record Reply.json
  rw [Option.isSome_none, if_neg Bool.false_ne_true, if_pos hwhole]
  rfl

end Emits

variable {p c : AuditRecord}

theorem read_comparison (hp : p.InBounds) (hc : c.InBounds) :
    DifferenceRequest.read (comparison p.toValue c.toValue) = .ok ⟨p.asWritten, c.asWritten⟩ := by
  simp [DifferenceRequest.read, comparison, record, required, Keyed.get?, AuditRecord.read_toValue hp,
    AuditRecord.read_toValue hc]

/-- No difference depends on a name that was mended. -/
theorem Compares.handle_eq (h : Compares q p.toValue c.toValue) (hp : p.InBounds) (hc : c.InBounds) (u : Service) :
    u.handle q = (difference ⟨p, c⟩, u) := by
  rw [handle_of_found h.found rfl rfl h.body]
  unfold act withTaken
  rw [taken_eq_ok.mpr (read_comparison hp hc)]
  rfl

end Service

namespace AuditRecord

/-- A record that there can be: it was read, or a service made it. -/
inductive Accepted (r : AuditRecord) : Prop where
  | read {v : Value} (hnames : v.EachObject Distinct) (hread : AuditRecord.read v = .ok r)
  | made {s : Service} {body : Value} (hnames : body.EachObject Distinct) (hmade : s.recordOf body = some r)

theorem Accepted.readable {r : AuditRecord} (h : r.Accepted) :
    r.InBounds ∧ ∀ names ∈ r.nameLists, Distinct names := by
  cases h with
  | read hnames hread => exact read_ensures hnames ⟨List.nodup_nil, nofun⟩ r hread
  | made hnames hmade => exact Service.recordOf_readable hmade hnames

/-- A finite record is written and read again as it was, exactly if it can be written and no name in it has a half. It is
what the reply shows to the purchase for which it was made, and any service compares it with another one as it was made,
which it sees as it was exactly if no name in them has a half. -/
theorem survives_wire_iff {p c : AuditRecord} (hp : p.Accepted) (hc : c.Accepted) (hpFinite : p.isFinite = true)
    (hcFinite : c.isFinite = true) :
    ((p.writeError? = none ∧ read p.toValue = .ok p) ↔ p.writeError? = none ∧ ∀ names ∈ p.nameLists, Whole names) ∧
      (∀ (s : Service) (q : Request) (shown : Value), s.Emits q p shown → shown = p.toValue) ∧
      (∀ (u : Service) (q : Request), Service.Compares q p.toValue c.toValue →
        u.handle q = (Service.difference ⟨p, c⟩, u)) ∧
      (DifferenceRequest.read (Service.comparison p.toValue c.toValue) = .ok ⟨p, c⟩ ↔
        (∀ names ∈ p.nameLists, Whole names) ∧ ∀ names ∈ c.nameLists, Whole names) := by
  obtain ⟨hpBounds, hpDistinct⟩ := hp.readable
  obtain ⟨hcBounds, hcDistinct⟩ := hc.readable
  rw [read_toValue hpBounds, Service.read_comparison hpBounds hcBounds,
    ← asWritten_eq_iff hpDistinct (finite_metadata hpFinite), ← asWritten_eq_iff hcDistinct (finite_metadata hcFinite),
    ok.injEq, ok.injEq, DifferenceRequest.mk.injEq]
  exact ⟨Iff.rfl, fun _ _ _ hemits => hemits.shown_eq_of_finite hpFinite,
    fun u _ hcompares => hcompares.handle_eq hpBounds hcBounds u, Iff.rfl⟩

end AuditRecord

namespace Sample

/-- A record of a purchase that was routed to a child with some metadata. -/
def resolvedRecord (metadata : Keyed Value) : AuditRecord where
  correlationId := "id"
  seed := 1
  userId := "user"
  policyVersion := "1.0.0"
  shortSignature := ""
  cacheHit := false
  pinned := false
  route := "router"
  routeName := "router"
  dpan := "**** 0000"
  selection := .auto Selection.scored
  isRouter := true
  routerId := some "router"
  childId := some "child"
  childName := some "child"
  resolution := some ⟨"router", { card "child" with metadata := metadata }, [], "Round robin: index 0", 0⟩
  hardOverride := false
  shadow := none
  matched := []
  failed := []
  weights := Weights.balanced
  rows := []
  candidates := []
  exclusions := []
  overridden := []
  risk := 0
  decline := 0
  authorization := none
  processingTime := 0
  timings := []
  spans := []
  errors := []
  timestamp := 0

theorem inBounds_resolvedRecord (metadata : Keyed Value) : (resolvedRecord metadata).InBounds where
  rows _ h := by cases h
  weights c := (Weights.balanced_fractions c).1

theorem writeError?_resolvedRecord (metadata : Keyed Value) :
    (resolvedRecord metadata).writeError? = Value.namedWriteError? metadata := rfl

theorem read_resolvedRecord {metadata : Keyed Value}
    (hdistinct : ∀ names ∈ (resolvedRecord metadata).nameLists, Distinct names)
    (hwhole : ∀ names ∈ (resolvedRecord metadata).nameLists, Whole names)
    (hfinite : (resolvedRecord metadata).isFinite = true) :
    AuditRecord.read (resolvedRecord metadata).toValue = .ok (resolvedRecord metadata) := by
  rw [AuditRecord.read_toValue (inBounds_resolvedRecord metadata),
    (AuditRecord.asWritten_eq_iff hdistinct (AuditRecord.finite_metadata hfinite)).mpr hwhole]

def service : Service where
  deployment := {}
  settings := .ok {}
  verifier := .trusted .null
  keys := {}
  publisher := {}
  broker := {}
  world := world []
  time := 0
  freshSeed := 1

/-- What is sent to have a purchase routed. -/
def order : Value := .object [("context", purchase.toValue), ("user", routed.toValue)]

/-- A purchase is routed, and all that is to be told of the run can be written and is whole. -/
theorem order_routed :
    ∃ result, service.runOf order = some result ∧ result.audit.isFinite = true ∧ result.audit.writeError? = none ∧
      (Service.told result).isWhole = true := by
  have hresult : (service.runOf order).map (fun result =>
      (result.audit.isFinite, result.audit.writeError?.isNone)) = some (true, true) := by
    decide +kernel
  -- What a run tells is checked in parts: each starts the run again, and all at once takes too much.
  have hfew : (service.runOf order).map (fun result =>
      ({ result.audit with spans := [] }.toValue.belowLastPlane &&
        { result.trace with spans := [], results := [] }.toValue.belowLastPlane) &&
      ((Value.ofList Nudge.toValue result.sensitivity).belowLastPlane &&
        result.audit.spans.all fun span => { span with logs := [] }.toValue.belowLastPlane)) = some true := by
    decide +kernel
  have hresults : (service.runOf order).map (fun result =>
      result.trace.results.all fun r => { r with logs := [] }.toValue.belowLastPlane) = some true := by
    decide +kernel
  have hentries : (service.runOf order).map (fun result =>
      result.trace.results.all fun r => r.logs.all fun e =>
        { e with message := "" }.toValue.belowLastPlane) = some true := by
    decide +kernel
  have hmessages : (service.runOf order).map (fun result =>
      result.trace.results.all fun r => r.logs.all fun e => Text.belowLastPlane e.message) = some true := by
    decide +kernel
  obtain ⟨result, hran, hresult⟩ := Option.map_eq_some_iff.mp hresult
  obtain ⟨hfinite, hwritable⟩ := Prod.mk.inj hresult
  refine ⟨result, hran, hfinite, Option.isNone_iff_eq_none.mp hwritable, ?_⟩
  simp only [hran, Option.map_some, Option.some.injEq, Bool.and_eq_true, List.all_eq_true]
    at hfew hresults hentries hmessages
  obtain ⟨⟨haudit, htrace⟩, hsensitivity, hspans⟩ := hfew
  have hwholeSpan (span : Span) (hspan : span ∈ result.audit.spans) :=
    Value.isWhole_of_belowLastPlane (hspans span hspan)
  have hwholeResult (r : StageResult) (hr : r ∈ result.trace.results) :=
    Value.isWhole_of_belowLastPlane (hresults r hr)
  refine Service.isWhole_told hran (Value.isWhole_of_belowLastPlane haudit) (Value.isWhole_of_belowLastPlane htrace)
    (Value.isWhole_of_belowLastPlane hsensitivity) hwholeSpan hwholeResult fun r hr e he => ?_
  rw [LogEntry.isWhole_toValue, Value.isWhole_of_belowLastPlane (hentries r hr e he),
    Text.isWhole_of_belowLastPlane (hmessages r hr e he), Bool.true_and]

/-- A request that sends a value. -/
def post (path : String) (v : Value) : Request := ⟨"POST", path, [], some v.compact⟩

/-- A request to compare two records. -/
def comparing (previous current : AuditRecord) : Request :=
  post "/v1/stop/diff" (Service.comparison previous.toValue current.toValue)

/-- A record that is written whole. -/
def plainRecord : AuditRecord := resolvedRecord [("note", .list [.null, .float 0.5])]

/-- A record whose metadata lies too deep to be written. -/
def deepRecord : AuditRecord := resolvedRecord [("note", nest 299)]

theorem compares_plainRecord :
    Service.Compares (comparing plainRecord plainRecord) plainRecord.toValue plainRecord.toValue where
  found := by decide +kernel
  body := Service.bodyOf_compact rfl rfl (by decide +kernel)

end Sample

namespace AuditRecord

theorem survives_wire_of_order :
    (Sample.plainRecord.writeError? = none ∧ read Sample.plainRecord.toValue = .ok Sample.plainRecord) ∧
      (∀ u : Service, u.handle (Sample.comparing Sample.plainRecord Sample.plainRecord) =
        (Service.difference ⟨Sample.plainRecord, Sample.plainRecord⟩, u)) ∧
      ∃ c shown, Sample.service.Emits (Sample.post "/v1/stop/route" Sample.order) c shown ∧ shown = c.toValue ∧
        ∀ (u : Service) (q : Request), Service.Compares q Sample.plainRecord.toValue shown →
          u.handle q = (Service.difference ⟨Sample.plainRecord, c⟩, u) := by
  have hnames : Sample.plainRecord.toValue.EachObject Distinct := by decide +kernel
  have hdistinct : ∀ names ∈ Sample.plainRecord.nameLists, Distinct names := by decide +kernel
  have hnamesWhole : ∀ names ∈ Sample.plainRecord.nameLists, Whole names := by decide +kernel
  have hfinite : Sample.plainRecord.isFinite = true := by decide +kernel
  have haccepted := Accepted.read hnames (Sample.read_resolvedRecord hdistinct hnamesWhole hfinite)
  obtain ⟨result, hran, hcFinite, hwritable, hwhole⟩ := Sample.order_routed
  have hc : Sample.service.recordOf Sample.order = some result.audit := by rw [Service.recordOf_eq, hran]; rfl
  have horder : Sample.order.EachObject Distinct := by decide +kernel
  have hsent : Service.bodyOf (Sample.post "/v1/stop/route" Sample.order) = .ok (some Sample.order) :=
    Service.bodyOf_compact rfl rfl (by decide +kernel)
  have hemits := Service.Emits.of_whole (by decide +kernel) hsent hran hwritable hwhole
  obtain ⟨hcomes, -, hitself, -⟩ := survives_wire_iff haccepted haccepted hfinite hfinite
  obtain ⟨-, -, hcompared, -⟩ := survives_wire_iff haccepted (.made horder hc) hfinite hcFinite
  obtain ⟨-, hshown, -, -⟩ := survives_wire_iff (.made horder hc) haccepted hcFinite hfinite
  have heq := hshown _ _ _ hemits
  refine ⟨hcomes.mpr ⟨by decide +kernel, hnamesWhole⟩, fun u => hitself u _ Sample.compares_plainRecord, _, _, hemits,
    heq, ?_⟩
  rw [heq]
  exact hcompared

/-- A finite record that is read, and has no name with a half, but is not written. -/
theorem deep_record_unwritten :
    ¬∀ (v : Value) (r : AuditRecord), v.EachObject Distinct → read v = .ok r → r.isFinite = true →
      r.writeError? = none ∧ read r.toValue = .ok r := by
  intro hall
  have hnames : Sample.deepRecord.toValue.EachObject Distinct := by decide +kernel
  have hdistinct : ∀ names ∈ Sample.deepRecord.nameLists, Distinct names := by decide +kernel
  have hwhole : ∀ names ∈ Sample.deepRecord.nameLists, Whole names := by decide +kernel
  have hfinite : Sample.deepRecord.isFinite = true := by decide +kernel
  obtain ⟨hwritable, -⟩ := hall _ _ hnames (Sample.read_resolvedRecord hdistinct hwhole hfinite) hfinite
  have hdeep : .tooDeep ∈ (Sample.nest 299).writeErrors Value.depthLimit := Sample.tooDeep_mem_writeErrors (by decide)
  have hmetadata := (Sample.writeError?_resolvedRecord _).symm.trans hwritable
  rw [Value.namedWriteError?_eq_none_iff.mp hmetadata _ List.mem_cons_self] at hdeep
  exact List.not_mem_nil hdeep

end AuditRecord

end WalletRouting
