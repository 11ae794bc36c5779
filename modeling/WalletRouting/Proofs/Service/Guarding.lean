import WalletRouting.Proofs.Access.Denial
import WalletRouting.Proofs.Service.Record

/-! # The guard of the policy

Without a token that grants the role, nothing of the policy is shown and nothing of it is changed. What is asked, and
with which tokens, decides every reply, and no reply is a success.
-/
namespace WalletRouting
set_option autoImplicit false

/-- The path leads to what administers the policy, or to nothing. -/
def Request.ToPolicy (r : Request) : Prop :=
  ∃ rest, segmentsOf r.path.toList = "v1" :: "admin" :: "policy" :: rest

namespace Endpoint

theorem offeredByPolicy_guarded (segments : List String) : ∀ p ∈ offeredByPolicy segments, p.2.guarded = true := by
  unfold offeredByPolicy
  split
  · unfold offeredByName
    simp only [Keyed.get?]
    split_ifs <;> simp [guarded]
  · unfold offeredFor
    split_ifs <;> simp [guarded]
  · split_ifs <;> simp [guarded]
  · simp

theorem guarded_of_toPolicy {r : Request} {e : Endpoint} (hpolicy : r.ToPolicy) (h : ofRequest r = .found e) :
    e.guarded = true := by
  obtain ⟨rest, hrest⟩ := hpolicy
  have hmem := mem_offered_of_lookup h
  rw [hrest] at hmem
  exact offeredByPolicy_guarded rest _ hmem

end Endpoint

namespace Reply

theorem isSuccess_json {status : Nat} (v : Value) (h : status < 200 ∨ 300 ≤ status) :
    (json status v).isSuccess = false := by
  unfold json
  split
  · change (decide (200 ≤ status) && decide (status < 300)) = false
    rw [Bool.and_eq_false_iff, decide_eq_false_iff_not, decide_eq_false_iff_not]
    omega
  · rfl

theorem isSuccess_message {status : Nat} (s : String) (h : status < 200 ∨ 300 ≤ status) :
    (message status s).isSuccess = false := isSuccess_json _ h

end Reply

namespace Service

/-- Settings that cannot be used turn everybody away. -/
def Authenticates (s : Service) : Prop := ∀ settings, s.settings = .ok settings → settings.authEnabled = true

/-- What the token of a request claims, if it has one whose key is found and which is valid. -/
def claimed? (settings : Settings) (r : Request) (s : Service) : Option Value :=
  match s.verifier with
  | .trusted claims => some claims
  | .tokens i => do
    let token ← Guard.bearer? (r.header? "authorization")
    let key ← (Token.signingKey i.provider settings.issuer token s.keys).1.toOption
    (i.decode settings token key).toOption

/-- The request carries a token that grants the role of an administrator. -/
def Privileged (r : Request) (s : Service) : Prop :=
  ∃ settings claims, s.settings = .ok settings ∧ s.claimed? settings r = some claims ∧
    Access.Grants settings.adminRole claims

/-- Something is answered without success and without regard to the world, which stays as it is. -/
def Denies (s : Service) (f : Service → Reply × Service) : Prop :=
  ∃ reply keys, reply.isSuccess = false ∧ ∀ w, f { s with world := w } = (reply, { s with world := w, keys := keys })

variable {s : Service} {r : Request}

theorem isSuccess_accessReply {e : AccessError} (h : e.Bars) : (accessReply e).isSuccess = false := by
  cases e with
  | denied status message =>
    refine Reply.isSuccess_message message ?_
    rcases h status message rfl with rfl | rfl | rfl <;> decide
  | _ => rfl

theorem isSuccess_of_bodyOf {reply : Reply} (h : bodyOf r = .error reply) : reply.isSuccess = false := by
  unfold bodyOf at h
  split at h
  · cases h
  · split at h
    · cases h
    · split at h
      · cases h
      · split at h
        · cases h
          exact Reply.isSuccess_message _ (by decide)
        · split at h
          · cases h
          · cases h
            exact Reply.isSuccess_json _ (by decide)
          · cases h
            exact Reply.isSuccess_message _ (by decide)

theorem authorize_eq (hauth : s.Authenticates) (r : Request) :
    ∃ outcome keys, Barred outcome ∧ (∀ claims, outcome = .ok claims → s.Privileged r) ∧
      ∀ w, authorize r { s with world := w } = (outcome, { s with world := w, keys := keys }) := by
  unfold authorize
  cases hsettings : s.settings with
  | bad issues =>
    have hbars : AccessError.Bars (.unusable (.issues issues)) := nofun
    exact ⟨_, s.keys, .error hbars, nofun, fun w => rfl⟩
  | ok settings =>
    unfold authorizeUnder
    dsimp only
    cases hverifier : s.verifier with
    | trusted claims =>
      refine ⟨_, s.keys, Access.barred_requireRole settings.adminRole claims, fun v hv => ?_, fun w => rfl⟩
      exact ⟨settings, claims, hsettings, by rw [claimed?, hverifier], Access.grants_of_requireRole hv⟩
    | tokens i =>
      refine ⟨_, _, Guard.barred_administrator i settings (Guard.bearer? (r.header? "authorization")) s.keys,
        fun v hv => ?_, fun w => rfl⟩
      obtain ⟨token, key, claims, htoken, hkey, hdecode, hgrants⟩ :=
        Guard.grants_of_administrator (hauth settings hsettings) hv
      refine ⟨settings, claims, hsettings, ?_, hgrants⟩
      rw [claimed?, hverifier]
      simp [htoken, hkey, hdecode, Except.toOption]

theorem admitted_denies (hauth : s.Authenticates) (hrole : ¬s.Privileged r) {e : Endpoint} (he : e.guarded = true)
    (body : Option Value) : s.Denies (admitted e r body) := by
  obtain ⟨outcome, keys, hbarred, hgrants, heq⟩ := authorize_eq hauth r
  cases outcome with
  | ok claims => exact absurd (hgrants claims rfl) hrole
  | error error =>
    refine ⟨accessReply error, keys, isSuccess_accessReply (hbarred error rfl), fun w => ?_⟩
    rw [admitted, if_pos he, heq]

theorem answer_denies (hauth : s.Authenticates) (hrole : ¬s.Privileged r) (hpolicy : r.ToPolicy) :
    s.Denies (answer r) := by
  unfold answer
  split
  · exact ⟨_, s.keys, Reply.isSuccess_message _ (by decide), fun w => rfl⟩
  · exact ⟨_, s.keys, Reply.isSuccess_message _ (by decide), fun w => rfl⟩
  · exact ⟨_, s.keys, rfl, fun w => rfl⟩
  · next e hfound =>
    have he := Endpoint.guarded_of_toPolicy hpolicy hfound
    split
    -- A body that is no JSON is answered before the sender is looked at.
    · split
      · next body _ => exact admitted_denies hauth hrole he body
      · next reply hbody => exact ⟨reply, s.keys, isSuccess_of_bodyOf hbody, fun w => rfl⟩
    · exact admitted_denies hauth hrole he none

theorem handle_denies (hauth : s.Authenticates) (hrole : ¬s.Privileged r) (hpolicy : r.ToPolicy) :
    s.Denies (handle r) := by
  obtain ⟨reply, keys, hsuccess, heq⟩ := answer_denies hauth hrole hpolicy
  refine ⟨if r.method = "HEAD" then ⟨reply.status, .text ""⟩ else reply, keys, ?_, fun w => ?_⟩
  · split
    · exact hsuccess
    · exact hsuccess
  · rw [handle, heq]

/-- No request in a row of them is privileged when it comes. -/
def Unprivileged (requests : List Request) (s : Service) : Prop :=
  ∀ earlier r later, requests = earlier ++ r :: later → ¬(handleAll earlier s).2.Privileged r

theorem Unprivileged.head {rest : List Request} (h : Unprivileged (r :: rest) s) : ¬s.Privileged r := h [] r rest rfl

theorem Unprivileged.tail {rest : List Request} (h : Unprivileged (r :: rest) s) : Unprivileged rest (s.handle r).2 :=
  fun earlier q later heq => h (r :: earlier) q later (congrArg (r :: ·) heq)

theorem Unprivileged.cons {rest : List Request} (hr : ¬s.Privileged r) (hrest : Unprivileged rest (s.handle r).2) :
    Unprivileged (r :: rest) s := by
  intro earlier q later heq
  cases earlier with
  | nil =>
    cases heq
    exact hr
  | cons first earlier =>
    cases heq
    exact hrest earlier q later rfl

theorem unprivileged_of_keys {requests : List Request} (hauth : s.Authenticates)
    (hpolicy : ∀ r ∈ requests, r.ToPolicy) (hkeys : ∀ r ∈ requests, ∀ keys, ¬({ s with keys := keys }).Privileged r) :
    Unprivileged requests s := by
  induction requests generalizing s with
  | nil =>
    intro earlier q later heq
    cases earlier <;> cases heq
  | cons r rest ih =>
    have hr : ¬s.Privileged r := hkeys r List.mem_cons_self s.keys
    obtain ⟨reply, keys, -, heq⟩ := handle_denies hauth hr (hpolicy r List.mem_cons_self)
    refine .cons hr ?_
    have hafter : (s.handle r).2 = { s with keys := keys } := congrArg Prod.snd (heq s.world)
    rw [hafter]
    exact ih (s := { s with keys := keys }) hauth (fun q hq => hpolicy q (List.mem_cons_of_mem r hq))
      fun q hq => hkeys q (List.mem_cons_of_mem r hq)

/-- Requests of which none is privileged are answered in the same way whatever the world, and leave it as it is. -/
theorem handleAll_denies {requests : List Request} (hauth : s.Authenticates) (hrole : Unprivileged requests s)
    (hpolicy : ∀ r ∈ requests, r.ToPolicy) :
    ∃ replies keys, (∀ reply ∈ replies, reply.isSuccess = false) ∧
      ∀ w, handleAll requests { s with world := w } = (replies, { s with world := w, keys := keys }) := by
  induction requests generalizing s with
  | nil => exact ⟨[], s.keys, nofun, fun w => rfl⟩
  | cons r rest ih =>
    -- Only keys are carried from one request to the next, and which ones does not depend on the world.
    obtain ⟨reply, keys, hsuccess, heq⟩ := handle_denies hauth hrole.head (hpolicy r List.mem_cons_self)
    have hrest : Unprivileged rest { s with keys := keys } := by
      have htail := hrole.tail
      rwa [heq s.world] at htail
    obtain ⟨replies, final, hsuccesses, hall⟩ :=
      ih (s := { s with keys := keys }) hauth hrest fun q hq => hpolicy q (List.mem_cons_of_mem r hq)
    refine ⟨reply :: replies, final, List.forall_mem_cons.mpr ⟨hsuccess, hsuccesses⟩, fun w => ?_⟩
    rw [handleAll, heq]
    dsimp only
    rw [hall]

end Service

namespace Sample

/-- The token of somebody who may look at wallets; it is signed with the key `k`. -/
def viewerToken : String := "eyJraWQiOiJrIn0.e30.e30"

def viewerClaims : Value := .object
  [("roles", .list [.text "viewer"]), ("realm_access", .object [("roles", .list [.text "wallet-user"])])]

/-- A provider that serves one key, with which one token is signed. -/
def identity : Identity where
  provider _ url :=
    if url = "https://auth.example.com/keys" then
      some ⟨.int 200, .object [("keys", .list [.object [("kid", .text "k")]])]⟩
    else some ⟨.int 200, .object [("jwks_uri", .text "https://auth.example.com/keys")]⟩
  decode _ token _ := if token = viewerToken then .ok viewerClaims else .error "Signature verification failed."

def guardedService : Service where
  deployment := {}
  settings := .ok { authEnabled := true }
  verifier := .tokens identity
  keys := {}
  publisher := {}
  broker := {}
  world := world []
  time := 0
  freshSeed := 1

theorem unprivileged_guardedService (r : Request) (keys : KeyCache) :
    ¬({ guardedService with keys := keys }).Privileged r := by
  rintro ⟨settings, claims, hsettings, hclaims, hgrants⟩
  cases hsettings
  have hviewer : claims = viewerClaims := by
    obtain ⟨token, -, hclaims⟩ := Option.bind_eq_some_iff.mp hclaims
    obtain ⟨key, -, hclaims⟩ := Option.bind_eq_some_iff.mp hclaims
    change (if token = viewerToken then .ok viewerClaims else .error _ : Except String Value).toOption = _ at hclaims
    split at hclaims
    · exact (Option.some.inj hclaims).symm
    · cases hclaims
  subst hviewer
  cases hgrants with
  | flat h hheld =>
    cases h
    cases hheld with
    | listed h => exact absurd (Value.text.inj (List.mem_singleton.mp h)) (by decide)
  | nested hrealm h hheld =>
    cases hrealm
    cases h
    cases hheld with
    | listed h => exact absurd (Value.text.inj (List.mem_singleton.mp h)) (by decide)

/-- One comes without a token, one with the token of a viewer, and one with a token that names no key. -/
def intrusions : List Request :=
  [⟨"GET", "/v1/admin/policy/active", [], none⟩,
   ⟨"DELETE", "/v1/admin/policy/pin", [("authorization", "Bearer " ++ viewerToken)], none⟩,
   ⟨"POST", "/v1/admin/policy/reset", [("authorization", "Bearer e30.e30.e30")], none⟩]

theorem toPolicy_intrusions : ∀ r ∈ intrusions, r.ToPolicy := by
  intro r hr
  fin_cases hr
  · exact ⟨["active"], by decide +kernel⟩
  · exact ⟨["pin"], by decide +kernel⟩
  · exact ⟨["reset"], by decide +kernel⟩

end Sample

namespace Service

example : (handleAll Sample.intrusions Sample.guardedService).1.map Reply.status = [401, 403, 401] := by decide +kernel

end Service

end WalletRouting
