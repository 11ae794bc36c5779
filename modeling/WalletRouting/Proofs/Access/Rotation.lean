import Mathlib.Data.List.Induction
import WalletRouting.Access.Keys
import WalletRouting.Proofs.Keyed
import WalletRouting.Proofs.Outcome

/-! # Rotation

The provider may change its keys between any two requests. A key that is not among those kept is looked for in a set
that is fetched for it, so a new key is found without anything being restarted, and a set that cannot be fetched costs
nothing that was kept.
-/
namespace WalletRouting
set_option autoImplicit false

namespace Keys

/-- The set lists these keys, each an object; one that does not say which keys it has, has none. -/
def Lists (set : Value) (keys : List (Keyed Value)) : Prop :=
  ∃ ms, set = .object ms ∧ (Keyed.get? "keys" ms).getD (.list []) = .list (keys.map .object)

def IsKeySet (set : Value) : Prop := ∃ keys, Lists set keys

def fits (kid : Value) (key : Keyed Value) : Bool := ((Keyed.get? "kid" key).getD .null).agrees kid

/-- The key stands in the set under the id. -/
def Offers (set kid key : Value) : Prop :=
  ∃ keys members, Lists set keys ∧ members ∈ keys ∧ fits kid members = true ∧ key = .object members

/-- Asks for the key set of an issuer and keeps nothing. -/
def fetch (p : Provider) (issuer : String) (c : KeyCache) : Except AccessError Value × KeyCache :=
  match get p (discoveryUrl issuer) c with
  | (.error e, c) => (.error e, c)
  | (.ok discovery, c) =>
    match keysUrl discovery with
    | .error e => (.error e, c)
    | .ok url => get p url c

variable {p : Provider} {issuer url : String} {kid set key : Value} {keys : List (Keyed Value)} {c d : KeyCache}
  {e : AccessError}

theorem load_eq (p : Provider) (issuer : String) (c : KeyCache) :
    load p issuer c = match fetch p issuer c with
      | (.error e, c) => (.error e, c)
      | (.ok set, c) => ((countable set).map fun _ => set, { c with sets := c.sets.put issuer set }) := by
  rcases hget : get p (discoveryUrl issuer) c with ⟨_ | discovery, d⟩
  · simp only [load, fetch, hget]
  · cases hurl : keysUrl discovery with
    | error e => simp only [load, fetch, hget, hurl]
    | ok url => rcases hset : get p url d with ⟨_ | set, _⟩ <;> simp only [load, fetch, hget, hurl, hset]

theorem get_sets (p : Provider) (url : String) (c : KeyCache) : (get p url c).2.sets = c.sets := by
  unfold get
  split <;> rfl

theorem fetch_sets (p : Provider) (issuer : String) (c : KeyCache) : (fetch p issuer c).2.sets = c.sets := by
  unfold fetch
  split
  · next hget => exact (congrArg (KeyCache.sets ∘ Prod.snd) hget).symm.trans (get_sets _ _ _)
  · next hget =>
    have hsets := (congrArg (KeyCache.sets ∘ Prod.snd) hget).symm.trans (get_sets _ _ _)
    split
    · exact hsets
    · exact (get_sets _ _ _).trans hsets

theorem get_requests (p : Provider) (url : String) (c : KeyCache) :
    ∃ urls, (get p url c).2.requests = c.requests ++ urls ∧ urls.length ≤ 1 := by
  unfold get
  split
  · exact ⟨[], by simp⟩
  · next address _ => exact ⟨[address.toText], by simp⟩

theorem fetch_requests (p : Provider) (issuer : String) (c : KeyCache) :
    ∃ urls, (fetch p issuer c).2.requests = c.requests ++ urls ∧ urls.length ≤ 2 := by
  obtain ⟨asked, hasked, hlength⟩ := get_requests p (discoveryUrl issuer) c
  unfold fetch
  split
  · next hget =>
    rw [hget] at hasked
    exact ⟨asked, hasked, by omega⟩
  · next discovery d hget =>
    rw [hget] at hasked
    split
    · exact ⟨asked, hasked, by omega⟩
    · next url _ =>
      obtain ⟨more, hmore, hone⟩ := get_requests p url d
      refine ⟨asked ++ more, ?_, by simp only [List.length_append]; omega⟩
      rw [hmore, ← List.append_assoc, ← hasked]

theorem member_keys (h : Lists set keys) : Access.member "keys" (.list []) set = .ok (.list (keys.map .object)) := by
  obtain ⟨ms, rfl, hkeys⟩ := h
  rw [← hkeys]
  rfl

theorem countable_of_isKeySet (h : IsKeySet set) : countable set = .ok () := by
  obtain ⟨keys, hkeys⟩ := h
  unfold countable
  rw [member_keys hkeys]
  rfl

theorem search_objects (kid : Value) (keys : List (Keyed Value)) :
    search kid (keys.map .object) = .ok ((keys.find? (fits kid)).map .object) := by
  induction keys with
  | nil => rfl
  | cons key keys ih =>
    rw [List.map_cons, search, List.find?_cons]
    cases hfits : fits kid key <;> simp_all [fits]

theorem find_eq (h : Lists set keys) (kid : Value) : find kid set = .ok ((keys.find? (fits kid)).map .object) := by
  unfold find
  rw [member_keys h]
  exact search_objects kid keys

theorem lists_unique {others : List (Keyed Value)} (h : Lists set keys) (hothers : Lists set others) :
    others = keys := by
  have hsame := (member_keys hothers).symm.trans (member_keys h)
  simpa [List.map_inj_right] using hsame

theorem find_of_isKeySet (h : IsKeySet set) (kid : Value) :
    (∃ key, find kid set = .ok (some key) ∧ Offers set kid key) ∨
      (find kid set = .ok none ∧ ∀ key, ¬Offers set kid key) := by
  obtain ⟨keys, hkeys⟩ := h
  rw [find_eq hkeys]
  cases hfind : keys.find? (fits kid) with
  | some members =>
    left
    exact ⟨.object members, rfl, keys, members, hkeys, List.mem_of_find?_eq_some hfind, List.find?_some hfind, rfl⟩
  | none =>
    right
    refine ⟨rfl, ?_⟩
    rintro key ⟨others, members, hothers, hmem, hfits, -⟩
    rw [lists_unique hkeys hothers] at hmem
    exact List.find?_eq_none.mp hfind members hmem hfits

theorem isPresent_of_offers (h : Offers set kid key) : set.isPresent = true := by
  obtain ⟨keys, members, ⟨ms, rfl, hkeys⟩, hmem, -⟩ := h
  cases ms with
  | nil =>
    cases keys with
    | nil => cases hmem
    | cons _ _ => cases hkeys
  | cons _ _ => rfl

/-- The provider may serve other keys every time, and may fail to serve any, but what it serves is a key set. -/
def ServesKeySets (p : Provider) : Prop := ∀ issuer c set, (fetch p issuer c).1 = .ok set → IsKeySet set

theorem document_eq_ok {v w : Value} (h : document v = .ok w) : w = v := by
  unfold document at h
  split at h
  · cases h
  · split at h
    · cases h
    · split at h <;> cases h
      rfl

theorem page_eq_ok {requests : List String} (h : page p requests url = .ok set) :
    ∃ found, p requests url = some found ∧ set = found.body := by
  cases hpage : p requests url with
  | none => simp [page, hpage] at h
  | some found =>
    refine ⟨found, rfl, ?_⟩
    have hbody : ∃ body, body = found.body ∧ document body = .ok set := by
      simp only [page, hpage] at h
      split at h
      · next hnull =>
        obtain ⟨body, ⟨⟩, h⟩ := bind_eq_ok h
        split at h
        · cases h
        · split at h
          · exact ⟨.null, hnull.symm, h⟩
          · cases h
      · obtain ⟨body, hdocument, h⟩ := bind_eq_ok h
        split at h
        · cases h
        · split at h
          · exact ⟨body, document_eq_ok hdocument, h⟩
          · cases h
    obtain ⟨body, rfl, hdocument⟩ := hbody
    exact document_eq_ok hdocument

theorem get_eq_ok (h : (get p url c).1 = .ok set) :
    ∃ address found, p c.requests address = some found ∧ set = found.body := by
  unfold get at h
  split at h
  · cases h
  · exact ⟨_, page_eq_ok h⟩

theorem servesKeySets_of_pages (h : ∀ requests url found, p requests url = some found → IsKeySet found.body) :
    ServesKeySets p := by
  intro issuer c set hset
  unfold fetch at hset
  split at hset
  · cases hset
  · split at hset
    · cases hset
    · obtain ⟨address, found, hfound, rfl⟩ := get_eq_ok hset
      exact h _ _ _ hfound

/-- What a fetch does to the cache: nothing but the keys of its issuer, and those only if they came. -/
theorem load_of_served (h : ServesKeySets p) (issuer : String) (c : KeyCache) :
    (∃ e d, load p issuer c = (.error e, d) ∧ d.sets = c.sets) ∨
      ∃ set d, load p issuer c = (.ok set, d) ∧ IsKeySet set ∧ d.sets = c.sets.put issuer set := by
  have hserved := h issuer c
  have hsets := fetch_sets p issuer c
  rw [load_eq]
  rcases hfetch : fetch p issuer c with ⟨e | set, d⟩ <;> rw [hfetch] at hserved hsets
  · exact .inl ⟨e, d, rfl, hsets⟩
  · have hset := hserved set rfl
    refine .inr ⟨set, { d with sets := d.sets.put issuer set }, ?_, hset, by simp only [← hsets]⟩
    simp only [countable_of_isKeySet hset]
    rfl

theorem load_requests (p : Provider) (issuer : String) (c : KeyCache) :
    ∃ urls, (load p issuer c).2.requests = c.requests ++ urls ∧ urls.length ≤ 2 := by
  have hfetch := fetch_requests p issuer c
  rw [load_eq]
  rcases heq : fetch p issuer c with ⟨e | set, d⟩ <;> rw [heq] at hfetch <;> exact hfetch

/-- Sets of keys are fetched one after another, each with an outcome. -/
inductive Fetches (p : Provider) (issuer : String) : KeyCache → List (Except AccessError Value) → KeyCache → Prop where
  | none (c : KeyCache) : Fetches p issuer c [] c
  | next {c d : KeyCache} {outcome : Except AccessError Value} {fetched : List (Except AccessError Value)}
      (h : Fetches p issuer (load p issuer c).2 fetched d) (houtcome : (load p issuer c).1 = outcome) :
      Fetches p issuer c (outcome :: fetched) d

theorem Fetches.once (p : Provider) (issuer : String) (c : KeyCache) :
    Fetches p issuer c [(Keys.load p issuer c).1] (Keys.load p issuer c).2 :=
  .next (.none _) rfl

/-- What is kept can be searched. -/
def WellKept (c : KeyCache) : Prop := ∀ issuer set, c.sets.get? issuer = some set → IsKeySet set

theorem WellKept.load (h : ServesKeySets p) (hc : WellKept c) (issuer : String) : WellKept (load p issuer c).2 := by
  rcases load_of_served h issuer c with ⟨e, d, heq, hsets⟩ | ⟨set, d, heq, hset, hsets⟩
  · intro other kept hkept
    rw [heq, hsets] at hkept
    exact hc other kept hkept
  · intro other kept hkept
    rw [heq, hsets, Keyed.get?_put] at hkept
    split at hkept
    · cases hkept
      exact hset
    · exact hc other kept hkept

theorem Fetches.wellKept {fetched : List (Except AccessError Value)} (h : ServesKeySets p) (hc : WellKept c)
    (hfetches : Fetches p issuer c fetched d) : WellKept d := by
  induction hfetches with
  | none c => exact hc
  | next _ _ ih => exact ih (hc.load h issuer)

theorem Fetches.requests {fetched : List (Except AccessError Value)} (hfetches : Fetches p issuer c fetched d) :
    ∃ urls, d.requests = c.requests ++ urls ∧ urls.length ≤ 2 * fetched.length := by
  induction hfetches with
  | none c => exact ⟨[], by simp⟩
  | @next c d _ _ _ _ ih =>
    obtain ⟨first, hfirst, htwo⟩ := load_requests p issuer c
    obtain ⟨rest, hrest, hlength⟩ := ih
    refine ⟨first ++ rest, by rw [hrest, hfirst, List.append_assoc], ?_⟩
    simp only [List.length_append, List.length_cons]
    omega

/-- How a lookup of a key is answered, given the set that was kept and the outcomes of its fetches. -/
structure Answered (kid : Value) (kept : Option Value) (fetched : List (Except AccessError Value))
    (answer : Except AccessError Value) : Prop where
  sound : ∀ key, answer = .ok key → ∃ set, (kept = some set ∨ .ok set ∈ fetched) ∧ Offers set kid key
  complete : (∀ outcome ∈ fetched, ∃ set key, outcome = .ok set ∧ Offers set kid key) → ∃ key, answer = .ok key
  spared : ∀ set key, kept = some set → Offers set kid key → fetched = []
  bounded : fetched.length ≤ 2
  explained : ∀ e, answer = .error e → .error e ∈ fetched ∨
    (e = unknownKey ∧ ∃ set, .ok set ∈ fetched ∧ ∀ key, ¬Offers set kid key)

/-- The last look for a key: whatever goes wrong now is the answer. -/
def attempt (kid : Value) (outcome : Except AccessError Value) : Except AccessError Value :=
  outcome >>= fun set => find kid set >>= require

theorem attempt_of_found (h : find kid set = .ok (some key)) : attempt kid (.ok set) = .ok key := by
  change find kid set >>= require = _
  rw [h]
  rfl

theorem attempt_of_missed (h : find kid set = .ok none) : attempt kid (.ok set) = .error unknownKey := by
  change find kid set >>= require = _
  rw [h]
  rfl

variable {kept : Option Value} {outcome : Except AccessError Value}

theorem answered_of_attempt (earlier : List (Except AccessError Value))
    (houtcome : ∀ set, outcome = .ok set → IsKeySet set) (hkept : ∀ set key, kept = some set → ¬Offers set kid key)
    (hearlier : earlier.length ≤ 1) :
    Answered kid kept (earlier ++ [outcome]) (attempt kid outcome) := by
  have hlast : outcome ∈ earlier ++ [outcome] := by simp
  have hbounded : (earlier ++ [outcome]).length ≤ 2 := by
    simp only [List.length_append, List.length_singleton]
    omega
  have hspared (set key : Value) (hset : kept = some set) (hoffers : Offers set kid key) : earlier ++ [outcome] = [] :=
    absurd hoffers (hkept set key hset)
  cases outcome with
  | error e =>
    refine ⟨nofun, fun hall => ?_, hspared, hbounded, ?_⟩
    · obtain ⟨_, _, ⟨⟩, -⟩ := hall _ hlast
    · rintro _ ⟨⟩
      exact .inl hlast
  | ok set =>
    rcases find_of_isKeySet (houtcome set rfl) kid with ⟨key, hfind, hoffers⟩ | ⟨hfind, hmissed⟩
    · rw [attempt_of_found hfind]
      refine ⟨?_, fun _ => ⟨key, rfl⟩, hspared, hbounded, nofun⟩
      rintro _ ⟨⟩
      exact ⟨set, .inr hlast, hoffers⟩
    · rw [attempt_of_missed hfind]
      refine ⟨nofun, fun hall => ?_, hspared, hbounded, ?_⟩
      · obtain ⟨_, key, ⟨⟩, hoffers⟩ := hall _ hlast
        exact absurd hoffers (hmissed key)
      · rintro _ ⟨⟩
        exact .inr ⟨rfl, set, hlast, hmissed⟩

theorem isKeySet_of_load (h : ServesKeySets p) (issuer : String) (c : KeyCache) (hset : (load p issuer c).1 = .ok set) :
    IsKeySet set := by
  rcases load_of_served h issuer c with ⟨e, d, heq, -⟩ | ⟨_, d, heq, hserved, -⟩
  · rw [heq] at hset
    cases hset
  · rw [heq] at hset
    cases hset
    exact hserved

/-- What is done with the set at hand: a key that it does not have is looked for in one more. -/
def continued (p : Provider) (issuer : String) (kid set : Value) (c : KeyCache) : Except AccessError Value × KeyCache :=
  match find kid set with
  | .error e => (.error e, c)
  | .ok (some key) => (.ok key, c)
  | .ok none => (attempt kid (load p issuer c).1, (load p issuer c).2)

theorem signingKey_eq (p : Provider) (issuer : String) (kid : Value) (c : KeyCache) :
    signingKey p issuer kid c = match current p issuer c with
      | (.error e, c) => (.error e, c)
      | (.ok set, c) => continued p issuer kid set c := by
  unfold signingKey continued
  rcases current p issuer c with ⟨_ | set, d⟩
  · rfl
  · dsimp only
    rcases find kid set with _ | _ | _
    · rfl
    · rcases load p issuer d with ⟨_ | _, _⟩ <;> rfl
    · rfl

theorem continued_of_found (h : find kid set = .ok (some key)) : continued p issuer kid set c = (.ok key, c) := by
  simp only [continued, h]

theorem continued_of_missed (h : find kid set = .ok none) :
    continued p issuer kid set c = (attempt kid (load p issuer c).1, (load p issuer c).2) := by
  simp only [continued, h]

theorem answered_of_unkept (h : ServesKeySets p) (hcurrent : current p issuer c = load p issuer c)
    (hkept : ∀ set key, kept = some set → ¬Offers set kid key) :
    ∃ fetched, Fetches p issuer c fetched (signingKey p issuer kid c).2 ∧
      Answered kid kept fetched (signingKey p issuer kid c).1 := by
  rw [signingKey_eq, hcurrent]
  rcases hload : load p issuer c with ⟨e | set, d⟩
  · refine ⟨[.error e], .next (by rw [hload]; exact .none d) (by rw [hload]), ?_⟩
    exact answered_of_attempt [] (fun _ => nofun) hkept (Nat.zero_le 1)
  · have hset : IsKeySet set := isKeySet_of_load h issuer c (by rw [hload])
    rcases find_of_isKeySet hset kid with ⟨key, hfind, -⟩ | ⟨hfind, -⟩
    · simp only [continued_of_found hfind]
      refine ⟨[.ok set], .next (by rw [hload]; exact .none d) (by rw [hload]), ?_⟩
      rw [← attempt_of_found hfind]
      refine answered_of_attempt [] ?_ hkept (Nat.zero_le 1)
      rintro _ ⟨⟩
      exact hset
    · simp only [continued_of_missed hfind]
      refine ⟨[.ok set, (load p issuer d).1], .next ?_ (by rw [hload]), ?_⟩
      · rw [hload]
        exact Fetches.once p issuer d
      · exact answered_of_attempt [.ok set] (fun _ => isKeySet_of_load h issuer d) hkept (Nat.le_refl 1)

theorem signingKey_answered (h : ServesKeySets p) (hc : WellKept c) (issuer : String) (kid : Value) :
    ∃ fetched, Fetches p issuer c fetched (signingKey p issuer kid c).2 ∧
      Answered kid (c.sets.get? issuer) fetched (signingKey p issuer kid c).1 := by
  cases hkept : c.sets.get? issuer with
  | none => exact answered_of_unkept h (by simp only [current, hkept]) nofun
  | some set =>
    cases hpresent : set.isPresent with
    | false =>
      refine answered_of_unkept h (by simp [current, hkept, hpresent]) ?_
      rintro _ key ⟨⟩ hoffers
      exact absurd (isPresent_of_offers hoffers) (by simp [hpresent])
    | true =>
      have hcurrent : current p issuer c = (.ok set, c) := by simp [current, hkept, hpresent]
      rw [signingKey_eq, hcurrent]
      rcases find_of_isKeySet (hc issuer set hkept) kid with ⟨key, hfind, hoffers⟩ | ⟨hfind, hmissed⟩
      · simp only [continued_of_found hfind]
        refine ⟨[], .none c, ?_, fun _ => ⟨key, rfl⟩, fun _ _ _ _ => rfl, Nat.zero_le 2, nofun⟩
        rintro _ ⟨⟩
        exact ⟨set, .inl rfl, hoffers⟩
      · simp only [continued_of_missed hfind]
        refine ⟨[(load p issuer c).1], Fetches.once p issuer c, ?_⟩
        refine answered_of_attempt [] (fun _ => isKeySet_of_load h issuer c) ?_ (Nat.zero_le 1)
        rintro _ key ⟨⟩
        exact hmissed key

end Keys

namespace KeyCache

/-- The cache after lookups of the keys of tokens, each for an issuer. -/
def after (p : Provider) (lookups : List (String × String)) : KeyCache :=
  lookups.foldl (fun c lookup => (Token.signingKey p lookup.1 lookup.2 c).2) {}

end KeyCache

namespace Token

open Keys

variable {p : Provider}

theorem wellKept_signingKey {c : KeyCache} (h : ServesKeySets p) (hc : WellKept c) (issuer token : String) :
    WellKept (signingKey p issuer token c).2 := by
  unfold signingKey
  split
  · exact hc
  · next kid _ =>
    obtain ⟨fetched, hfetches, -⟩ := signingKey_answered h hc issuer kid
    exact hfetches.wellKept h hc

theorem wellKept_after (h : ServesKeySets p) (lookups : List (String × String)) :
    WellKept (KeyCache.after p lookups) := by
  induction lookups using List.reverseRecOn with
  | nil => exact nofun
  | append_singleton lookups lookup ih =>
    rw [KeyCache.after, List.foldl_append]
    exact wellKept_signingKey h ih lookup.1 lookup.2

/-- However the provider changes its keys: after any lookups, a key is found if the sets that are fetched for it have
it, only keys of the right id are found, and what cannot be fetched changes nothing that is kept. -/
theorem keys_rotate (h : ServesKeySets p) (lookups : List (String × String)) (issuer token : String) :
    let c := KeyCache.after p lookups
    (∀ e, keyId token = .error e → signingKey p issuer token c = (.error e, c)) ∧
      (∀ kid, keyId token = .ok kid → ∃ fetched,
        Fetches p issuer c fetched (signingKey p issuer token c).2 ∧
        Answered kid (c.sets.get? issuer) fetched (signingKey p issuer token c).1 ∧
        ∃ urls, (signingKey p issuer token c).2.requests = c.requests ++ urls ∧ urls.length ≤ 2 * fetched.length) ∧
      ∀ d other e, (load p other d).1 = .error e → (load p other d).2.sets = d.sets := by
  intro c
  refine ⟨?_, ?_, ?_⟩
  · intro e hkid
    simp only [signingKey, hkid]
  · intro kid hkid
    simp only [signingKey, hkid]
    obtain ⟨fetched, hfetches, hanswered⟩ := signingKey_answered h (wellKept_after h lookups) issuer kid
    exact ⟨fetched, hfetches, hanswered, hfetches.requests⟩
  · intro d other e hfailed
    rcases load_of_served h other d with ⟨_, _, heq, hsets⟩ | ⟨_, _, heq, -⟩
    · rw [heq]
      exact hsets
    · rw [heq] at hfailed
      cases hfailed

end Token

namespace Sample

/-- A provider that has replaced its key once the set has been asked for. -/
def rotating : Provider := fun requests url =>
  if url = "https://auth.example.com/keys" then
    some ⟨.int 200, .object [("keys", .list [.object [("kid", .text (if requests.length < 2 then "a" else "b"))]])]⟩
  else some ⟨.int 200, .object [("jwks_uri", .text "https://auth.example.com/keys")]⟩

def firstToken : String := "eyJraWQiOiJhIn0.e30.e30"

def secondToken : String := "eyJraWQiOiJiIn0.e30.e30"

def issuer : String := "https://auth.example.com"

theorem rotating_servesKeySets : Keys.ServesKeySets rotating := by
  refine Keys.servesKeySets_of_pages fun requests url found h => ?_
  unfold rotating at h
  split at h <;> cases h
  · exact ⟨[[("kid", .text (if requests.length < 2 then "a" else "b"))]], _, rfl, rfl⟩
  · exact ⟨[], _, rfl, rfl⟩

end Sample

namespace Token

open Keys

/-- Once the key of the first token is kept, that of the second is found in a set that is fetched for it. -/
theorem second_key_found : ServesKeySets Sample.rotating ∧ ∃ kid key set,
    keyId Sample.secondToken = .ok kid ∧ kid.agrees (.text "b") = true ∧
    (signingKey Sample.rotating Sample.issuer Sample.secondToken
      (KeyCache.after Sample.rotating [(Sample.issuer, Sample.firstToken)])).1 = .ok key ∧
    Offers set kid key := by
  obtain ⟨kid, hkid, hb⟩ : ∃ kid, keyId Sample.secondToken = .ok kid ∧ kid.agrees (.text "b") = true :=
    exists_ok_of_toOption (by decide +kernel)
  obtain ⟨key, hkey, -⟩ : ∃ key, (signingKey Sample.rotating Sample.issuer Sample.secondToken
      (KeyCache.after Sample.rotating [(Sample.issuer, Sample.firstToken)])).1 = .ok key ∧ key.isPresent = true :=
    exists_ok_of_toOption (by decide +kernel)
  obtain ⟨-, hlookup, -⟩ :=
    keys_rotate Sample.rotating_servesKeySets [(Sample.issuer, Sample.firstToken)] Sample.issuer Sample.secondToken
  obtain ⟨fetched, -, hanswered, -⟩ := hlookup kid hkid
  obtain ⟨set, -, hoffers⟩ := hanswered.sound key hkey
  exact ⟨Sample.rotating_servesKeySets, kid, key, set, hkid, hb, hkey, hoffers⟩

end Token

end WalletRouting
