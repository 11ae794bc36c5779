import WalletRouting.Proofs.Json.Reading
import WalletRouting.Service.Basic

/-! # Requests

A request that reaches an endpoint for everybody is answered by what the endpoint does with the body, and a body that was
written is read as what was written.
-/
namespace WalletRouting
set_option autoImplicit false

namespace Endpoint

variable {method : String} {path : List Char} {segments : List String} {e : Endpoint}

theorem mem_offered_of_lookup (h : lookup method path = .found e) :
    (method, e) ∈ offered (Request.segmentsOf path) := by
  unfold lookup at h
  split at h
  · split at h <;> cases h
  · split at h
    · next hget =>
      cases h
      exact Keyed.mem_of_get? hget
    · cases h

theorem offeredToWallets_head (name : String) : ∀ p ∈ offeredToWallets name, p.1 ≠ "HEAD" := by
  unfold offeredToWallets
  simp only [Keyed.get?]
  split_ifs <;> simp

theorem offeredByPolicy_head (segments : List String) : ∀ p ∈ offeredByPolicy segments, p.1 ≠ "HEAD" := by
  unfold offeredByPolicy
  split
  · unfold offeredByName
    simp only [Keyed.get?]
    split_ifs <;> simp
  · unfold offeredFor
    split_ifs <;> simp
  · split_ifs <;> simp
  · simp

theorem offered_head (segments : List String) : ∀ p ∈ offered segments, p.1 ≠ "HEAD" := by
  unfold offered
  split
  · split_ifs <;> simp
  · exact offeredToWallets_head _
  · exact offeredByPolicy_head _
  · simp

end Endpoint

namespace Service

theorem bodyOf_compact {q : Request} {v : Value} (hbody : q.body = some v.compact) (hjson : q.otherContent = false)
    (hv : v.isLegible = true) : bodyOf q = .ok (some v) := by
  have hsome : v.compact ≠ "" := by
    obtain ⟨c, more, hwrite, -⟩ := Json.write_head v
    rw [Value.compact, hwrite]
    intro hempty
    have hchars := congrArg String.toList hempty
    rw [String.toList_ofList] at hchars
    cases hchars
  unfold bodyOf
  rw [hbody]
  dsimp only
  rw [if_neg hsome, hjson, if_neg Bool.false_ne_true, Json.decoded?_compact]
  dsimp only
  rw [Json.read_compact hv]

theorem handle_eq_admitted {q : Request} {e : Endpoint} {body : Option Value}
    (hfound : Endpoint.ofRequest q = .found e) (hbody : if e.takesBody then bodyOf q = .ok body else body = none)
    (s : Service) : s.handle q = s.admitted e q body := by
  have hmethod : q.method ≠ "HEAD" := Endpoint.offered_head _ _ (Endpoint.mem_offered_of_lookup hfound)
  unfold handle answer
  rw [hfound]
  dsimp only
  split at hbody
  · next htakes =>
    rw [if_pos htakes, hbody]
    dsimp only
    rw [if_neg hmethod]
  · next htakes =>
    rw [if_neg htakes, hbody, if_neg hmethod]

theorem handle_of_found {q : Request} {e : Endpoint} {body : Option Value} (hfound : Endpoint.ofRequest q = .found e)
    (hguarded : e.guarded = false) (htakes : e.takesBody = true) (hbody : bodyOf q = .ok body) (s : Service) :
    s.handle q = s.act e body := by
  have htaken : if e.takesBody then bodyOf q = .ok body else body = none := by rwa [if_pos htakes]
  rw [handle_eq_admitted hfound htaken, admitted, hguarded, if_neg Bool.false_ne_true]

end Service

end WalletRouting
