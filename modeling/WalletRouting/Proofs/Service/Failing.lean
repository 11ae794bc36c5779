import WalletRouting.Proofs.Run.Independence
import WalletRouting.Proofs.Service.Guarding

/-! # Requests that fail

An operation is carried out before there is an answer. A request that fails has therefore changed nothing, unless what
it asked for was carried out and cannot be told.
-/
namespace WalletRouting
set_option autoImplicit false

/-- Versions, current name and pin are as before; a registry may have been fetched since. -/
def Registry.Stays (before after : Registry) : Prop := ∃ time, after = before.fetchedAt time

theorem Registry.Stays.refl (r : Registry) : r.Stays r := ⟨r.lastFetched, rfl⟩

theorem World.fetch_stays (cached : Bool) (low high : Number) (g : Generator) (w : World) :
    w.registry.Stays (w.fetch cached low high g).2.2.registry := by
  unfold fetch
  split
  · exact .refl _
  · exact ⟨w.clock.now, rfl⟩

theorem World.tryReset_stays {w : World} {issues : List Schema.Issue} (h : w.tryReset.1 = .error issues) :
    w.registry.Stays w.tryReset.2.registry := by
  unfold tryReset at h ⊢
  split at h
  · cases h
  · exact .refl _

/-- What an endpoint of the policy is asked to do to it, if its body can be taken. -/
def Endpoint.asked? (e : Endpoint) (body : Option Value) : Option Operation :=
  match e with
  | .addRule => (Service.taken Rule.read body).toOption.map .add
  | .updateRule id => (Service.taken (Schema.mapOf Schema.anything) body).toOption.map (.update id)
  | .removeRule id => some (.remove id)
  | .reorderRules => (Service.taken Service.ids body).toOption.map .reorder
  | .pin => (Service.taken Service.pinRequest body).toOption.map .pin
  | .unpin => some (.pin none)
  | .setCached version =>
    (Service.taken Service.cacheRequest body).toOption.map fun cached => .cache version (.bool cached)
  | .reset => some .reset
  | _ => none

namespace Operation

/-- What is to be told of an operation that is carried out, and what stands against writing it. -/
def told? (o : Operation) (w : World) : Option (Option WriteError × Value) :=
  match o with
  | .pin version => (w.registry.pin version).toOption.map fun r => (none, .object [Service.pinValue r])
  | .cache version mark =>
    (w.registry.markCached version mark).toOption.map fun _ =>
      (none, .object [("version", .text version), ("is_cached", mark)])
  | .reset =>
    w.tryReset.1.toOption.map fun _ =>
      (none, .object [("current_version", w.tryReset.2.registry.currentAs), Service.pinValue w.tryReset.2.registry])
  | o => (o.leaves? w.registry).map fun p => (p.writeError?, p.toValue)

/-- The operation is carried out, and what is to be told of it cannot be sent. -/
def Undelivered (o : Operation) (w : World) : Prop :=
  ∃ e v, o.told? w = some (e, v) ∧ (e.isSome = true ∨ v.isWhole = false)

end Operation

namespace Reply

variable {status : Nat} {e : Option WriteError} {v : Value}

theorem record_unsendable (h : e.isSome = true ∨ v.isWhole = false) : record status e v = failure := by
  unfold record json
  rcases h with h | h
  · rw [if_pos h]
  · rw [h, if_neg Bool.false_ne_true, ite_self]

theorem isSuccess_record (hstatus : 200 ≤ status ∧ status < 300) (h : ¬(e.isSome = true ∨ v.isWhole = false)) :
    (record status e v).isSuccess = true := by
  obtain ⟨hwritable, hwhole⟩ := not_or.mp h
  unfold record json
  rw [if_neg hwritable, if_pos (Bool.not_eq_false _ ▸ hwhole)]
  simpa [isSuccess] using hstatus

end Reply

namespace Service

/-- What the service makes of an operation that it is asked for. -/
structure Performs (s : Service) (o : Operation) (done : Reply × Service) : Prop where
  world : done.2.world = (o.apply s.world).2
  told : ∀ e v, o.told? s.world = some (e, v) → ∃ status, (200 ≤ status ∧ status < 300) ∧ done.1 = Reply.record status e v
  untold : o.told? s.world = none → s.world.registry.Stays done.2.world.registry

variable {s : Service} {o : Operation} {status : Nat} {done : Reply × Service}

theorem Performs.of_refused (hworld : done.2.world = (o.apply s.world).2) (htold : o.told? s.world = none)
    (hstays : s.world.registry.Stays done.2.world.registry) : s.Performs o done where
  world := hworld
  told _ _ h := by cases htold.symm.trans h
  untold _ := hstays

theorem Performs.of_done {e : Option WriteError} {v : Value} (hstatus : 200 ≤ status ∧ status < 300)
    (hworld : done.2.world = (o.apply s.world).2) (htold : o.told? s.world = some (e, v))
    (hreply : done.1 = Reply.record status e v) : s.Performs o done where
  world := hworld
  told _ _ h := by
    cases htold.symm.trans h
    exact ⟨status, hstatus, hreply⟩
  untold h := by cases htold.symm.trans h

theorem edited_world (w : World) (outcome : Except RegistryError (PolicyVersion × Registry)) :
    (w.edited outcome).2 = (outcome.toOption.map fun made => w.withRegistry made.2).getD w := by
  rcases outcome with e | ⟨p, r⟩
  · rfl
  · unfold World.edited
    dsimp only
    split <;> rfl

theorem changed_world (w : World) (outcome : Except RegistryError Registry) :
    (w.changed outcome).2 = (outcome.toOption.map w.withRegistry).getD w := by
  cases outcome <;> rfl

/-- What comes of an edit is stored and told; what is answered if nothing comes of it does not matter. -/
theorem performs_outcome {α : Type} {outcome : Except RegistryError α} {report : α → Option WriteError × Value}
    {registry : α → Registry} (hstatus : 200 ≤ status ∧ status < 300)
    (hworld : (o.apply s.world).2 = (outcome.toOption.map fun a => s.world.withRegistry (registry a)).getD s.world)
    (htold : o.told? s.world = outcome.toOption.map report)
    (hdone : ∀ a, outcome = .ok a → done = (Reply.record status (report a).1 (report a).2, s.withRegistry (registry a)))
    (hfailed : ∀ e, outcome = .error e → done.2 = s) : s.Performs o done := by
  cases houtcome : outcome with
  | error e =>
    rw [houtcome] at hworld htold
    refine .of_refused ?_ htold ?_
    · rw [hfailed e houtcome, hworld]
      rfl
    · rw [hfailed e houtcome]
      exact .refl _
  | ok a =>
    rw [houtcome] at hworld htold
    have hdone := hdone a houtcome
    subst hdone
    exact .of_done hstatus hworld.symm htold rfl

theorem performs_edited (hstatus : 200 ≤ status ∧ status < 300)
    {outcome : Except RegistryError (PolicyVersion × Registry)} (happly : o.apply s.world = s.world.edited outcome)
    (htold : o.told? s.world = (outcome.toOption.map Prod.fst).map fun p => (p.writeError?, p.toValue))
    (hdone : ∀ p r, outcome = .ok (p, r) → done = (Reply.record status p.writeError? p.toValue, s.withRegistry r))
    (hfailed : ∀ e, outcome = .error e → done.2 = s) : s.Performs o done := by
  have hworld := edited_world s.world outcome
  rw [← happly] at hworld
  rw [Option.map_map] at htold
  exact performs_outcome hstatus hworld htold (fun made h => hdone made.1 made.2 h) hfailed

theorem performs_edit (hstatus : 200 ≤ status ∧ status < 300)
    {outcome : Except RegistryError (PolicyVersion × Registry)} (happly : o.apply s.world = s.world.edited outcome)
    (htold : o.told? s.world = (outcome.toOption.map Prod.fst).map fun p => (p.writeError?, p.toValue)) :
    s.Performs o (s.edited status outcome) := by
  refine performs_edited hstatus happly htold ?_ ?_
  · rintro p r rfl
    rfl
  · rintro e rfl
    rfl

theorem performs_reorder (ids : List String) : s.Performs (.reorder ids) (s.reorder ids) := by
  have hstatus : 200 ≤ 200 ∧ 200 < 300 := by decide
  have happly : (Operation.reorder ids).apply s.world = s.world.edited (s.world.registry.reorderRules ids) := rfl
  refine performs_edited hstatus happly rfl ?_ ?_
  · intro p r h
    rw [reorder, h]
  · intro e h
    rw [reorder, h]

theorem performs_pin (version : Option String) :
    s.Performs (.pin version) (s.pinned (s.world.registry.pin version)) := by
  have hstatus : 200 ≤ 200 ∧ 200 < 300 := by decide
  refine performs_outcome hstatus (changed_world s.world (s.world.registry.pin version)) rfl ?_ ?_
  · intro r h
    rw [h]
    rfl
  · intro e h
    rw [h]
    rfl

theorem performs_setCached (version : String) (cached : Bool) :
    s.Performs (.cache version (.bool cached)) (s.setCached version cached) := by
  have hstatus : 200 ≤ 200 ∧ 200 < 300 := by decide
  refine performs_outcome hstatus (changed_world s.world (s.world.registry.markCached version (.bool cached))) rfl ?_ ?_
  · intro r h
    rw [setCached, Registry.setCached, h]
    rfl
  · intro e h
    rw [setCached, Registry.setCached, h]

theorem performs_reset : s.Performs .reset s.reset := by
  have hworld : (Operation.reset.apply s.world).2 = s.world.tryReset.2 := rfl
  unfold reset
  rcases hreset : s.world.tryReset with ⟨issues | ⟨⟨⟩⟩, w⟩
  · have hstays := World.tryReset_stays (congrArg Prod.fst hreset)
    rw [hreset] at hworld hstays
    refine .of_refused hworld.symm ?_ hstays
    rw [Operation.told?, hreset]
    rfl
  · have hstatus : 200 ≤ 200 ∧ 200 < 300 := by decide
    have htold : Operation.reset.told? s.world =
        some (none, .object [("current_version", w.registry.currentAs), pinValue w.registry]) := by
      rw [Operation.told?, hreset]
      rfl
    rw [hreset] at hworld
    exact .of_done hstatus hworld.symm htold rfl

theorem withTaken_ok {α : Type} {read : Schema.Read α} {body : Option Value} {a : α} {f : α → Reply × Service}
    (h : taken read body = .ok a) : s.withTaken read body f = f a := by
  rw [withTaken, h]

theorem exists_taken {α : Type} {read : Schema.Read α} {body : Option Value} {make : α → Operation}
    (h : (taken read body).toOption.map make = some o) : ∃ a, taken read body = .ok a ∧ make a = o := by
  obtain ⟨a, ha, hmake⟩ := Option.map_eq_some_iff.mp h
  cases htaken : taken read body with
  | error reply =>
    rw [htaken] at ha
    cases ha
  | ok b =>
    rw [htaken] at ha
    cases ha
    exact ⟨a, rfl, hmake⟩

theorem act_asked {e : Endpoint} {body : Option Value} (h : e.asked? body = some o) : s.Performs o (s.act e body) := by
  cases e with
  | addRule =>
    obtain ⟨rule, htaken, rfl⟩ := exists_taken h
    rw [act, withTaken_ok htaken]
    exact performs_edit (by decide) rfl rfl
  | updateRule id =>
    obtain ⟨updates, htaken, rfl⟩ := exists_taken h
    rw [act, withTaken_ok htaken]
    exact performs_edit (by decide) rfl rfl
  | removeRule id =>
    cases h
    exact performs_edit (by decide) rfl rfl
  | reorderRules =>
    obtain ⟨ids, htaken, rfl⟩ := exists_taken h
    rw [act, withTaken_ok htaken]
    exact performs_reorder ids
  | pin =>
    obtain ⟨version, htaken, rfl⟩ := exists_taken h
    rw [act, withTaken_ok htaken]
    exact performs_pin version
  | unpin =>
    cases h
    exact performs_pin none
  | setCached version =>
    obtain ⟨cached, htaken, rfl⟩ := exists_taken h
    rw [act, withTaken_ok htaken]
    exact performs_setCached version cached
  | reset =>
    cases h
    exact performs_reset
  | _ => cases h

theorem withTaken_stays {α : Type} {read : Schema.Read α} {body : Option Value} {f : α → Reply × Service}
    (h : ∀ a, taken read body = .ok a → s.world.registry.Stays (f a).2.world.registry) :
    s.world.registry.Stays (s.withTaken read body f).2.world.registry := by
  unfold withTaken
  split
  · next a ha => exact h a ha
  · exact .refl _

theorem fetch_stays (seed : Option Int) : s.world.registry.Stays (s.fetch seed).2.world.registry := by
  unfold fetch
  cases hactive : s.world.registry.active with
  | error e => exact .refl _
  | ok p =>
    dsimp only
    have hstays := World.fetch_stays p.cached (.int Stage.policyLoad.latencyRange.1)
      (.int Stage.policyLoad.latencyRange.2) (Generator.ofSeed (seed.getD s.freshSeed)) s.world
    split
    · next hfetch => rwa [hfetch] at hstays
    · next hfetch => rwa [hfetch] at hstays

theorem act_unasked {e : Endpoint} {body : Option Value} (he : e.guarded = true) (h : e.asked? body = none) :
    s.world.registry.Stays (s.act e body).2.world.registry := by
  cases e with
  | index | health | route | difference => cases he
  | versions => exact .refl _
  | active =>
    rw [act, active]
    split <;> exact .refl _
  | validateRule => exact withTaken_stays fun _ _ => .refl _
  | fetch => exact withTaken_stays fun seed _ => fetch_stays seed
  | removeRule | unpin | reset => cases h
  | addRule | updateRule | reorderRules | pin | setCached =>
    refine withTaken_stays fun a ha => ?_
    rw [Endpoint.asked?, ha] at h
    cases h

theorem authorize_snd (r : Request) (s : Service) : ∃ keys, (s.authorize r).2 = { s with keys := keys } := by
  unfold authorize
  split
  · unfold authorizeUnder
    split
    · exact ⟨s.keys, rfl⟩
    · exact ⟨_, rfl⟩
  · exact ⟨s.keys, rfl⟩

/-- Whoever is authorized is let in, with keys that may have been fetched on the way. -/
theorem exists_admitted {r : Request} {e : Endpoint} {claims : Value} (he : e.guarded = true)
    (hclaims : (s.authorize r).1 = .ok claims) (body : Option Value) :
    ∃ keys, s.admitted e r body = act e body { s with keys := keys } := by
  obtain ⟨keys, hkeys⟩ := authorize_snd r s
  refine ⟨keys, ?_⟩
  rw [admitted, if_pos he]
  generalize s.authorize r = authorized at hclaims hkeys ⊢
  obtain ⟨outcome, after⟩ := authorized
  cases hclaims
  cases hkeys
  rfl

/-- The request comes from an administrator and asks for an operation. -/
def Asks (r : Request) (o : Operation) (s : Service) : Prop :=
  ∃ e body claims, Endpoint.ofRequest r = .found e ∧
    (if e.takesBody then bodyOf r = .ok body else body = none) ∧ (s.authorize r).1 = .ok claims ∧
      e.asked? body = some o

variable {r : Request} {e : Endpoint} {body : Option Value}

theorem handle_asked (h : s.Asks r o) : s.Performs o (s.handle r) := by
  obtain ⟨e, body, claims, hfound, hbody, hclaims, hasked⟩ := h
  have hguarded : e.guarded = true := by cases e <;> first | rfl | cases hasked
  obtain ⟨keys, hadmitted⟩ := exists_admitted hguarded hclaims body
  rw [handle_eq_admitted hfound hbody, hadmitted]
  obtain ⟨hworld, htold, huntold⟩ := act_asked (s := { s with keys := keys }) hasked
  exact ⟨hworld, htold, huntold⟩

theorem admitted_stays (he : e.guarded = true)
    (h : ∀ claims, (s.authorize r).1 = .ok claims → e.asked? body = none) :
    s.world.registry.Stays (s.admitted e r body).2.world.registry := by
  obtain ⟨keys, hkeys⟩ := authorize_snd r s
  rw [admitted, if_pos he]
  rcases hauthorize : s.authorize r with ⟨error | claims, after⟩
  · rw [hauthorize] at hkeys
    cases hkeys
    exact .refl _
  · rw [hauthorize] at hkeys
    cases hkeys
    exact act_unasked (s := { s with keys := keys }) he (h claims (by rw [hauthorize]))

theorem handle_unasked (hpolicy : r.ToPolicy) (h : ∀ o, ¬s.Asks r o) :
    s.world.registry.Stays (s.handle r).2.world.registry := by
  have hsame : (s.handle r).2 = (s.answer r).2 := rfl
  rw [hsame, answer]
  split
  · exact .refl _
  · exact .refl _
  · exact .refl _
  · next e hfound =>
    have he := Endpoint.guarded_of_toPolicy hpolicy hfound
    have hnone : ∀ body, (if e.takesBody then bodyOf r = .ok body else body = none) →
        ∀ claims, (s.authorize r).1 = .ok claims → e.asked? body = none := by
      intro body hbody claims hclaims
      refine Option.eq_none_iff_forall_ne_some.mpr fun o ho => h o ?_
      exact ⟨e, body, claims, hfound, hbody, hclaims, ho⟩
    split
    · next htakes =>
      split
      · next body hbody => exact admitted_stays he (hnone body (by rwa [if_pos htakes]))
      · exact .refl _
    · next htakes => exact admitted_stays he (hnone none (by rw [if_neg htakes]))

/-- Who asks for an operation that cannot be told fails, and the operation is carried out. -/
theorem handle_undelivered (h : s.Asks r o) (hundelivered : o.Undelivered s.world) :
    (s.handle r).1 = Reply.failure ∧ (s.handle r).2.world = (o.apply s.world).2 := by
  obtain ⟨hworld, htold, -⟩ := handle_asked h
  obtain ⟨e, v, hreport, hunsendable⟩ := hundelivered
  obtain ⟨status, -, hreply⟩ := htold e v hreport
  exact ⟨hreply.trans (Reply.record_unsendable hunsendable), hworld⟩

theorem undelivered_or_stays (hpolicy : r.ToPolicy) (hfailed : (s.handle r).1.isSuccess = false) :
    (∃ o, s.Asks r o ∧ o.Undelivered s.world) ∨ s.world.registry.Stays (s.handle r).2.world.registry := by
  by_cases hasks : ∃ o, s.Asks r o
  · obtain ⟨o, ho⟩ := hasks
    obtain ⟨-, htold, huntold⟩ := handle_asked ho
    cases hreport : o.told? s.world with
    | none => exact Or.inr (huntold hreport)
    | some report =>
      obtain ⟨status, hstatus, hreply⟩ := htold _ _ hreport
      refine Or.inl ⟨o, ho, report.1, report.2, hreport, ?_⟩
      by_contra hsendable
      rw [hreply, Reply.isSuccess_record hstatus hsendable] at hfailed
      cases hfailed
  · exact Or.inr (handle_unasked hpolicy (not_exists.mp hasks))

end Service

namespace Sample

/-- Everybody administers the policy, which has no rules. -/
def openService : Service := { service with verifier := .tokens identity }

/-- A request to remove a rule that is not there. -/
def removal : Request := ⟨"DELETE", "/v1/admin/policy/rules/rule_x", [], none⟩

/-- A rule whose condition compares with an object that has half of a surrogate pair for a name. -/
def halfRule : Value := .object
  [("id", .text "rule_half"), ("label", .text "Half"), ("type", .text "SOFT"),
   ("condition", .object
     [("field", .text "amount"), ("operator", .text "eq"), ("value", .object [(Text.ofPoints [0xD800], .int 1)])]),
   ("action", .object [("type", .text "BOOST"), ("boost_amount", .int 2), ("reason", .text "r")])]

end Sample

namespace Service

theorem half_rule_undelivered :
    ∃ o, Sample.openService.Asks (Sample.post "/v1/admin/policy/rules" Sample.halfRule) o ∧
      o.Undelivered Sample.openService.world ∧
        ((o.apply Sample.openService.world).2.registry.versions.map fun p => p.rules.length) = [1] := by
  have hfound : Endpoint.ofRequest (Sample.post "/v1/admin/policy/rules" Sample.halfRule) = .found .addRule := by
    decide +kernel
  have hbody : bodyOf (Sample.post "/v1/admin/policy/rules" Sample.halfRule) = .ok (some Sample.halfRule) :=
    bodyOf_compact rfl rfl (by decide +kernel)
  have hadded : ((Endpoint.asked? .addRule (some Sample.halfRule)).map fun o =>
      ((o.told? Sample.openService.world).map fun report => report.1.isSome,
        (o.apply Sample.openService.world).2.registry.versions.map fun p => p.rules.length)) =
      some (some true, [1]) := by
    decide +kernel
  obtain ⟨o, hasked, hadded⟩ := Option.map_eq_some_iff.mp hadded
  obtain ⟨htold, hcounts⟩ := Prod.mk.inj hadded
  obtain ⟨⟨e, v⟩, htold, hunwritable⟩ := Option.map_eq_some_iff.mp htold
  exact ⟨o, ⟨.addRule, some Sample.halfRule, _, hfound, hbody, rfl, hasked⟩, ⟨e, v, htold, Or.inl hunwritable⟩, hcounts⟩

end Service

end WalletRouting
