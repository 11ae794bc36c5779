import WalletRouting.Proofs.Service.Failing

/-! # Refusals

What the domain refuses has a status of its own. An endpoint answers with it, unless the refusal cannot be sent or the
endpoint is the one that orders rules.
-/
namespace WalletRouting
set_option autoImplicit false

namespace RegistryError

/-- What is not there is not found, and what is not a rule that may be there is not accepted. That something cannot be
written is no refusal. -/
def status? : RegistryError → Option Nat
  | .unknownVersion _ => some 404
  | .unknownPin _ => some 404
  | .unknownRule _ _ => some 404
  | .duplicateRule _ _ => some 422
  | .invalidRule _ _ => some 422
  | .malformedRule _ => some 422
  | .unwritable _ => none

def explained (e : RegistryError) (defects : List Defect) : Value :=
  .object [("message", .text e.message), ("errors", .ofList (fun d => .text d.message) defects)]

def told : RegistryError → Value
  | .duplicateRule id version => explained (.duplicateRule id version) []
  | .invalidRule id defects => explained (.invalidRule id defects) defects
  | .malformedRule found => .list (found.map Schema.Issue.report)
  | e => .text e.message

/-- What a report quotes of the rule as it would have been. -/
def quoted : RegistryError → List Value
  | .malformedRule found => found.map Schema.Issue.input
  | _ => []

end RegistryError

namespace RunError

def status? : RunError → Option Nat
  | .busy => some 409
  | .policy e => e.status?
  | _ => none

def told : RunError → Value
  | .policy e => e.told
  | e => .text e.message

def quoted : RunError → List Value
  | .policy e => e.quoted
  | _ => []

theorem status_ne_failure {e : RunError} {status : Nat} (h : e.status? = some status) : status ≠ 500 := by
  cases e with
  | busy =>
    cases h
    decide
  | policy e =>
    cases e <;> cases h <;> decide
  | _ => cases h

/-- A refusal can be sent. What it quotes is not sent, but has to be such that it could be. -/
structure Tellable (e : RunError) : Prop where
  whole : e.told.isWhole = true
  quotable : ∀ v ∈ e.quoted, v.isFinite = true ∧ v.isWhole = true

end RunError

namespace Reply

variable {status : Nat} {v : Value}

theorem detail_eq (status : Nat) (v : Value) :
    detail status v = if v.isWhole then ⟨status, .json (.object [("detail", v.finitePart)])⟩ else failure := by
  have hname : Text.isWhole "detail" = true := by decide +kernel
  have hwhole : Value.isWhole (.object [("detail", v)]) = v.isWhole := by
    simp [Value.isWhole, hname]
  rw [detail, json, hwhole]
  simp [Value.finitePart]

theorem issues_eq (found : List Schema.Issue) :
    issues found = if found.all fun i => i.input.isFinite && i.input.isWhole then
      detail 422 (.list (found.map Schema.Issue.report)) else failure := rfl

end Reply

namespace Service

variable {s : Service} {r : Request} {e : Endpoint} {body : Option Value} {error : RunError} {status : Nat}

/-- How a refusal is told where it can be. -/
def refusal (status : Nat) (error : RunError) : Reply := ⟨status, .json (.object [("detail", error.told.finitePart)])⟩

theorem detail_told (h : error.quoted = []) (status : Nat) :
    (error.Tellable → Reply.detail status error.told = refusal status error) ∧
      (¬error.Tellable → Reply.detail status error.told = Reply.failure) := by
  rw [Reply.detail_eq]
  constructor
  · intro htellable
    rw [if_pos htellable.whole, refusal]
  · intro huntellable
    refine if_neg fun hwhole => huntellable ⟨hwhole, ?_⟩
    rw [h]
    exact nofun

theorem runReply_eq (hstatus : error.status? = some status) :
    (error.Tellable → runReply error = refusal status error) ∧ (¬error.Tellable → runReply error = Reply.failure) := by
  cases error with
  | busy =>
    cases hstatus
    exact detail_told rfl 409
  | policy e =>
    cases e with
    | unwritable => cases hstatus
    | malformedRule found =>
      cases hstatus
      have hreply : runReply (.policy (.malformedRule found)) = Reply.issues found := rfl
      have hquotable : (found.all fun i => i.input.isFinite && i.input.isWhole) = true ↔
          ∀ v ∈ (RunError.policy (.malformedRule found)).quoted, v.isFinite = true ∧ v.isWhole = true := by
        simp [RunError.quoted, RegistryError.quoted]
      rw [hreply, Reply.issues_eq, Reply.detail_eq]
      constructor
      · rintro ⟨hwhole, hquoted⟩
        rw [if_pos (hquotable.mpr hquoted)]
        exact if_pos hwhole
      · intro huntellable
        split
        · next hall => exact if_neg fun hwhole => huntellable ⟨hwhole, hquotable.mp hall⟩
        · rfl
    | _ =>
      cases hstatus
      exact detail_told rfl _
  | _ => cases hstatus

/-- What the domain refuses while an endpoint acts on a body. -/
inductive Raises (s : Service) (body : Option Value) : Endpoint → RunError → Prop where
  | asked {e : Endpoint} {o : Operation} {error : RegistryError} (hasked : e.asked? body = some o)
      (h : (o.apply s.world).1 = .error (.registry error)) : Raises s body e (.policy error)
  | active {error : RegistryError} (h : s.world.registry.active = .error error) : Raises s body .active (.policy error)
  | fetch {seed : Option Int} {error : RegistryError} (htaken : taken fetchRequest body = .ok seed)
      (h : s.world.registry.active = .error error) : Raises s body .fetch (.policy error)
  | route {q : RouteRequest} {error : RunError} (htaken : taken RouteRequest.read body = .ok q)
      (h : ((s.engine q.seed).route q.transaction q.user s.world).1 = .error error) : Raises s body .route error

theorem eq_error_of_edited {w : World} {outcome : Except RegistryError (PolicyVersion × Registry)}
    {error : RegistryError} (hstatus : error.status? = some status)
    (h : (w.edited outcome).1 = .error (.registry error)) : outcome = .error error := by
  rcases outcome with e | ⟨p, r⟩
  · cases h
    rfl
  · unfold World.edited at h
    dsimp only at h
    split at h <;> cases h
    cases hstatus

theorem eq_error_of_changed {w : World} {outcome : Except RegistryError Registry} {error : RegistryError}
    (h : (w.changed outcome).1 = .error (.registry error)) : outcome = .error error := by
  cases outcome <;> cases h
  rfl

/-- Every endpoint that asks for something tells what is refused, but the one that orders rules. -/
theorem act_refused {o : Operation} {error : RegistryError} (hasked : e.asked? body = some o)
    (h : (o.apply s.world).1 = .error (.registry error)) (hstatus : error.status? = some status) :
    (s.act e body).1 = if e = .reorderRules then Reply.failure else registryReply error := by
  cases e with
  | addRule =>
    obtain ⟨rule, htaken, rfl⟩ := exists_taken hasked
    rw [act, withTaken_ok htaken, eq_error_of_edited hstatus h]
    rfl
  | updateRule id =>
    obtain ⟨updates, htaken, rfl⟩ := exists_taken hasked
    rw [act, withTaken_ok htaken, eq_error_of_edited hstatus h]
    rfl
  | removeRule id =>
    cases hasked
    rw [act, eq_error_of_edited hstatus h]
    rfl
  | reorderRules =>
    obtain ⟨ids, htaken, rfl⟩ := exists_taken hasked
    rw [act, withTaken_ok htaken, reorder, eq_error_of_edited hstatus h]
    rfl
  | pin =>
    obtain ⟨version, htaken, rfl⟩ := exists_taken hasked
    rw [act, withTaken_ok htaken, eq_error_of_changed h]
    rfl
  | unpin =>
    cases hasked
    rw [act, eq_error_of_changed h]
    rfl
  | setCached version =>
    obtain ⟨cached, htaken, rfl⟩ := exists_taken hasked
    have hrefused : s.world.registry.setCached version cached = .error error := eq_error_of_changed h
    rw [act, withTaken_ok htaken, setCached, hrefused]
    rfl
  | reset =>
    cases hasked
    change (s.world.tryReset.1.mapError OperationError.undated).map (fun _ => Answer.nothing) = _ at h
    cases htried : s.world.tryReset.1 <;> rw [htried] at h <;> cases h
  | _ => cases hasked

theorem act_raises (hraises : s.Raises body e error) (hstatus : error.status? = some status) :
    (s.act e body).1 = if e = .reorderRules then Reply.failure else runReply error := by
  cases hraises with
  | asked hasked h => exact act_refused hasked h hstatus
  | active h =>
    rw [act, active, h]
    rfl
  | fetch htaken h =>
    rw [act, withTaken_ok htaken, fetch, h]
    rfl
  | @route q _ htaken h =>
    rw [act, withTaken_ok htaken, route]
    rcases hroute : (s.engine q.seed).route q.transaction q.user s.world with ⟨_ | _, w⟩
    · rw [hroute] at h
      cases h
      rfl
    · rw [hroute] at h
      cases h

/-- A request that an endpoint acts on. -/
structure Admits (s : Service) (r : Request) (e : Endpoint) (body : Option Value) : Prop where
  found : Endpoint.ofRequest r = .found e
  body : if e.takesBody then bodyOf r = .ok body else body = none
  authorized : e.guarded = true → ∃ claims, (s.authorize r).1 = .ok claims

theorem Admits.handle_eq (h : s.Admits r e body) : ∃ keys, s.handle r = act e body { s with keys := keys } := by
  rw [handle_eq_admitted h.found h.body]
  cases hguarded : e.guarded with
  | false =>
    rw [admitted, hguarded]
    exact ⟨s.keys, rfl⟩
  | true =>
    obtain ⟨claims, hclaims⟩ := h.authorized hguarded
    exact exists_admitted hguarded hclaims body

theorem Raises.withKeys (h : s.Raises body e error) (keys : KeyCache) :
    Raises { s with keys := keys } body e error := by
  cases h with
  | asked hasked h => exact .asked hasked h
  | active h => exact .active h
  | fetch htaken h => exact .fetch htaken h
  | route htaken h => exact .route htaken h

/-- A refusal is answered with its status exactly if it can be told and is not of an order of rules; else it is answered
as a failure. -/
theorem refused_iff (hadmits : s.Admits r e body) (hraises : s.Raises body e error)
    (hstatus : error.status? = some status) :
    ((s.handle r).1.status = status ↔ e ≠ .reorderRules ∧ error.Tellable) ∧
      (e ≠ .reorderRules ∧ error.Tellable → (s.handle r).1 = refusal status error) ∧
      (¬(e ≠ .reorderRules ∧ error.Tellable) → (s.handle r).1 = Reply.failure) := by
  obtain ⟨keys, hhandle⟩ := hadmits.handle_eq
  have hreply := act_raises (hraises.withKeys keys) hstatus
  obtain ⟨htold, huntold⟩ := runReply_eq hstatus
  rw [← hhandle] at hreply
  have hyes (h : e ≠ .reorderRules ∧ error.Tellable) : (s.handle r).1 = refusal status error := by
    rw [hreply, if_neg h.1, htold h.2]
  have hno (h : ¬(e ≠ .reorderRules ∧ error.Tellable)) : (s.handle r).1 = Reply.failure := by
    by_cases horder : e = .reorderRules
    · rw [hreply, if_pos horder]
    · rw [hreply, if_neg horder, huntold fun htellable => h ⟨horder, htellable⟩]
  refine ⟨⟨?_, fun h => by rw [hyes h]; rfl⟩, hyes, hno⟩
  intro hsame
  by_contra h
  rw [hno h] at hsame
  exact RunError.status_ne_failure hstatus hsame.symm

theorem order_refused_iff {ids : List String} (htaken : taken Service.ids body = .ok ids) :
    (∃ error status, s.Raises body .reorderRules error ∧ error.status? = some status) ↔
      ∀ p ∈ s.world.registry.versions, p.version ≠ s.world.registry.current := by
  have hasked : Endpoint.asked? .reorderRules body = some (.reorder ids) := by
    rw [Endpoint.asked?, htaken]
    rfl
  have hfind : (∀ p ∈ s.world.registry.versions, p.version ≠ s.world.registry.current) ↔
      s.world.registry.versions.find? (fun p => p.version = s.world.registry.current) = none := by
    simp [List.find?_eq_none]
  rw [hfind]
  constructor
  · rintro ⟨_, status, ⟨hreorder, h⟩, hstatus⟩
    cases hasked.symm.trans hreorder
    have hrefused : s.world.registry.reorderRules ids = .error _ := eq_error_of_edited hstatus h
    rw [Option.eq_none_iff_forall_ne_some]
    intro p hp
    rw [Registry.reorderRules, Registry.edit, Registry.find, hp] at hrefused
    cases hrefused
  · intro hnone
    refine ⟨.policy (.unknownVersion s.world.registry.current), 404, .asked hasked ?_, rfl⟩
    have hrefused : s.world.registry.reorderRules ids = .error (.unknownVersion s.world.registry.current) := by
      rw [Registry.reorderRules, Registry.edit, Registry.find, hnone]
      rfl
    change (s.world.edited (s.world.registry.reorderRules ids)).1 = _
    rw [hrefused]
    rfl

end Service

namespace Sample

/-- A service whose current version is none of its versions. -/
def strandedService : Service :=
  { openService with world := World.opened ⟨some [policy []], .text "9.9.9", .null⟩ (Clock.steady (.int 0) (.int 1)) }

def ordering : Value := .object [("rule_ids", .list [])]

/-- A request to order the rules of the current version. -/
def orderRequest : Request := { post "/v1/admin/policy/rules/order" ordering with method := "PUT" }

theorem admits_orderRequest : strandedService.Admits orderRequest .reorderRules (some ordering) where
  found := by decide +kernel
  body := Service.bodyOf_compact rfl rfl (by decide +kernel)
  authorized _ := ⟨_, rfl⟩

theorem admits_removal : strandedService.Admits removal (.removeRule "rule_x") none where
  found := by decide +kernel
  body := rfl
  authorized _ := ⟨_, rfl⟩

end Sample

namespace Service

/-- Where the current version is not there, the removal of a rule is answered with the status of what is not found. -/
theorem removal_refused :
    (Sample.strandedService.Admits Sample.removal (.removeRule "rule_x") none ∧
        Sample.strandedService.Raises none (.removeRule "rule_x") (.policy (.unknownVersion "9.9.9"))) ∧
      (Sample.strandedService.handle Sample.removal).1 = refusal 404 (.policy (.unknownVersion "9.9.9")) := by
  have hraises : Sample.strandedService.Raises none (.removeRule "rule_x") (.policy (.unknownVersion "9.9.9")) :=
    .asked rfl rfl
  refine ⟨⟨Sample.admits_removal, hraises⟩, ?_⟩
  refine (refused_iff Sample.admits_removal hraises rfl).2.1 ⟨by decide, ?_, nofun⟩
  decide +kernel

/-- Where the current version is not there, an order of its rules fails. -/
theorem order_of_missing_version_fails :
    ¬∀ (s : Service) (r : Request) (e : Endpoint) (body : Option Value) (error : RunError) (status : Nat),
      s.Admits r e body → s.Raises body e error → error.status? = some status → (s.handle r).1.status = status := by
  intro hall
  have hraises :
      Sample.strandedService.Raises (some Sample.ordering) .reorderRules (.policy (.unknownVersion "9.9.9")) :=
    .asked rfl rfl
  have hfails : (Sample.strandedService.handle Sample.orderRequest).1 = Reply.failure := by
    obtain ⟨keys, hhandle⟩ := Sample.admits_orderRequest.handle_eq
    rw [hhandle, act_raises (hraises.withKeys keys) rfl]
    rfl
  have hstatus := hall _ _ _ _ _ _ Sample.admits_orderRequest hraises rfl
  rw [hfails] at hstatus
  cases hstatus

end Service

end WalletRouting
