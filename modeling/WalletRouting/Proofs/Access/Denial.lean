import WalletRouting.Access.Guard
import WalletRouting.Proofs.Outcome

/-! # Denial

Whoever is let through holds the role. Whatever goes wrong before that, on the way to the keys, with the token or with
what it claims, ends in one of three statuses or in no status at all.
-/
namespace WalletRouting
set_option autoImplicit false

namespace Value

theorem eq_text_of_agrees {v : Value} {s : String} (h : v.agrees (.text s) = true) : v = .text s := by
  cases v with
  | text t => rw [eq_of_beq h]
  | _ => cases h

theorem elements_of_atoms {v : Value} {xs : List Value} (h : v.atoms = .ok xs) : v.elements = .ok xs := by
  obtain ⟨ys, helements, h⟩ := bind_eq_ok h
  split at h
  · cases h
    exact helements
  · cases h

end Value

namespace Access

/-- A list holds what stands in it, an object the names of its members, and a text its characters. -/
inductive Holds (role : String) : Value → Prop where
  | listed {xs : List Value} (h : .text role ∈ xs) : Holds role (.list xs)
  | named {ms : Keyed Value} (h : role ∈ ms.map Prod.fst) : Holds role (.object ms)
  | spelled {s : String} (h : role ∈ Text.elements s) : Holds role (.text s)

/-- Claims hold the role among the roles, or among the roles of the realm. -/
inductive Grants (role : String) : Value → Prop where
  | flat {ms : Keyed Value} {held : Value} (h : Keyed.get? "roles" ms = some held) (hheld : Holds role held) :
      Grants role (.object ms)
  | nested {ms realm : Keyed Value} {held : Value} (hrealm : Keyed.get? "realm_access" ms = some (.object realm))
      (h : Keyed.get? "roles" realm = some held) (hheld : Holds role held) : Grants role (.object ms)

variable {name role : String} {default v claims : Value} {xs : List Value}

theorem mem_of_mem_distinct {x : Value} (h : x ∈ distinct xs) : x ∈ xs := by
  induction xs with
  | nil => exact h
  | cons y xs ih =>
    rcases List.mem_cons.mp h with rfl | h
    · exact List.mem_cons_self
    · exact List.mem_cons_of_mem _ (ih (List.mem_filter.mp h).1)

theorem holds_of_elements (h : elements v = .ok xs) (hrole : .text role ∈ xs) : Holds role v := by
  have helements := Value.elements_of_atoms (eq_ok_of_mapError h)
  cases v with
  | list ys =>
    cases helements
    exact .listed hrole
  | text s =>
    cases helements
    obtain ⟨c, hc, hrole⟩ := List.mem_map.mp hrole
    cases hrole
    exact .spelled hc
  | object ms =>
    cases helements
    obtain ⟨m, hm, hrole⟩ := List.mem_map.mp hrole
    cases hrole
    exact .named (List.mem_map_of_mem hm)
  | _ => cases helements

theorem member_eq_ok {w : Value} (h : member name default v = .ok w) :
    ∃ ms, v = .object ms ∧ w = (Keyed.get? name ms).getD default := by
  obtain ⟨found, hfound, rfl⟩ := map_eq_ok h
  cases v with
  | object ms =>
    cases hfound
    exact ⟨ms, rfl, rfl⟩
  | _ => cases hfound

theorem holds_getD {ms : Keyed Value} (h : Holds role ((Keyed.get? name ms).getD (.list []))) :
    ∃ held, Keyed.get? name ms = some held ∧ Holds role held := by
  cases hget : Keyed.get? name ms with
  | some held =>
    rw [hget] at h
    exact ⟨held, rfl, h⟩
  | none =>
    rw [hget] at h
    cases h with
    | listed hmem => exact absurd hmem List.not_mem_nil

theorem grants_of_roles (h : roles claims = .ok xs) (hrole : .text role ∈ xs) : Grants role claims := by
  obtain ⟨flat, hflat, h⟩ := bind_eq_ok h
  obtain ⟨flats, hflats, h⟩ := bind_eq_ok h
  obtain ⟨realm, hrealm, h⟩ := bind_eq_ok h
  obtain ⟨nested, hnested, h⟩ := bind_eq_ok h
  obtain ⟨nesteds, hnesteds, h⟩ := bind_eq_ok h
  cases h
  obtain ⟨ms, rfl, rfl⟩ := member_eq_ok hflat
  rcases List.mem_append.mp (mem_of_mem_distinct hrole) with hrole | hrole
  · obtain ⟨held, hget, hheld⟩ := holds_getD (holds_of_elements hflats hrole)
    exact .flat hget hheld
  · obtain ⟨_, hms, rfl⟩ := member_eq_ok hrealm
    cases hms
    obtain ⟨inner, hinner, rfl⟩ := member_eq_ok hnested
    obtain ⟨held, hget, hheld⟩ := holds_getD (holds_of_elements hnesteds hrole)
    -- Where there is no realm, an empty one stands in, which holds nothing.
    cases hrealm : Keyed.get? "realm_access" ms with
    | some realm =>
      rw [hrealm] at hinner
      cases hinner
      exact .nested hrealm hget hheld
    | none =>
      rw [hrealm] at hinner
      cases hinner
      cases hget

theorem grants_of_requireRole (h : requireRole role claims = .ok v) : Grants role claims := by
  obtain ⟨held, hheld, h⟩ := bind_eq_ok h
  split at h
  · next hany =>
    obtain ⟨x, hx, hagrees⟩ := List.any_eq_true.mp hany
    rw [Value.eq_text_of_agrees hagrees] at hx
    exact grants_of_roles hheld hx
  · cases h

end Access

/-- Unauthorised, forbidden or unavailable, if the error comes with a status of its own. -/
def AccessError.Bars (e : AccessError) : Prop :=
  ∀ status message, e = .denied status message → status = 401 ∨ status = 403 ∨ status = 503

/-- Where there is no result, access is barred. -/
def Barred {α : Type} (x : Except AccessError α) : Prop := ∀ e, x = .error e → e.Bars

namespace Barred

variable {α β : Type} {x : Except AccessError α} {f : α → Except AccessError β} {e : AccessError}

theorem ok (a : α) : Barred (.ok a : Except AccessError α) := nofun

theorem error (h : e.Bars) : Barred (.error e : Except AccessError α) := by
  rintro _ ⟨⟩
  exact h

theorem denied {status : Nat} (message : String) (h : status = 401 ∨ status = 403 ∨ status = 503) :
    Barred (.error (.denied status message) : Except AccessError α) := by
  refine error ?_
  rintro _ _ ⟨⟩
  exact h

theorem bind (hx : Barred x) (hf : ∀ a, Barred (f a)) : Barred (x >>= f) := by
  cases x with
  | error e => exact error (hx e rfl)
  | ok a => exact hf a

theorem map {g : α → β} (hx : Barred x) : Barred (x.map g) := hx.bind fun a => ok (g a)

theorem unusable (x : Except Misuse α) : Barred (x.mapError .unusable) := by
  cases x with
  | error m => exact error nofun
  | ok a => exact ok a

theorem ite {p : Prop} [Decidable p] {y : Except AccessError α} (hx : Barred x) (hy : Barred y) :
    Barred (if p then x else y) := by
  split
  · exact hx
  · exact hy

end Barred

namespace Access

theorem barred_member (name : String) (default v : Value) : Barred (member name default v) := (Barred.unusable _).map

theorem barred_roles (claims : Value) : Barred (roles claims) :=
  (barred_member _ _ _).bind fun _ => (Barred.unusable _).bind fun _ => (barred_member _ _ _).bind fun _ =>
    (barred_member _ _ _).bind fun _ => (Barred.unusable _).bind fun _ => .ok _

theorem barred_requireRole (role : String) (claims : Value) : Barred (requireRole role claims) :=
  (barred_roles claims).bind fun _ => .ite (.ok _) (.denied _ (by decide))

end Access

namespace Keys

variable (p : Provider) (issuer url : String) (kid : Value) (c : KeyCache)

theorem barred_document (v : Value) : Barred (document v) := by
  unfold document
  refine .ite (.error nofun) (.ite (.error nofun) ?_)
  split
  · exact .error nofun
  · exact .ok _

theorem barred_page (requests : List String) : Barred (page p requests url) := by
  unfold page
  split
  · exact .error nofun
  · refine .ite (.bind (.ok _) fun found => ?_) (.bind (barred_document _) fun found => ?_)
    all_goals
      split
      · exact .error nofun
      · exact .ite (barred_document found) (.error nofun)

theorem barred_get : Barred (get p url c).1 := by
  unfold get
  split
  · exact .error nofun
  · exact barred_page p _ _

theorem barred_keysUrl (discovery : Value) : Barred (keysUrl discovery) := by
  refine (Barred.unusable _).bind fun v => ?_
  split
  · exact .ok _
  · exact .error nofun

theorem barred_countable (set : Value) : Barred (countable set) :=
  (Access.barred_member _ _ _).bind fun _ => (Barred.unusable _).bind fun _ => .ok _

theorem barred_load : Barred (load p issuer c).1 := by
  unfold load
  split
  · next hget => exact .error (barred_get p _ c _ (congrArg Prod.fst hget))
  · next discovery _ _ =>
    split
    · next herror => exact .error (barred_keysUrl discovery _ herror)
    · split
      · next hget => exact .error (barred_get p _ _ _ (congrArg Prod.fst hget))
      · exact (barred_countable _).map

theorem barred_search (xs : List Value) : Barred (search kid xs) := by
  induction xs with
  | nil => exact .ok _
  | cons x xs ih =>
    unfold search
    cases x with
    | object ms => exact .ite (.ok _) ih
    | _ => exact .error nofun

theorem barred_find (set : Value) : Barred (find kid set) :=
  (Access.barred_member _ _ _).bind fun _ => (Barred.unusable _).bind fun _ => barred_search kid _

theorem barred_current : Barred (current p issuer c).1 := by
  unfold current
  split
  · split
    · exact .ok _
    · exact barred_load p issuer c
  · exact barred_load p issuer c

theorem barred_require (found : Option Value) : Barred (require found) := by
  cases found with
  | none => exact .denied _ (by decide)
  | some key => exact .ok key

theorem barred_signingKey : Barred (signingKey p issuer kid c).1 := by
  unfold signingKey
  split
  · next hcurrent => exact .error (barred_current p issuer c _ (congrArg Prod.fst hcurrent))
  · split
    · next herror => exact .error (barred_find kid _ _ herror)
    · exact .ok _
    · split
      · next hload => exact .error (barred_load p issuer _ _ (congrArg Prod.fst hload))
      · exact (barred_find kid _).bind barred_require

end Keys

namespace Token

theorem barred_keyId (token : String) : Barred (keyId token) := by
  unfold keyId
  split
  · exact Access.barred_member _ _ _
  · exact .error nofun

theorem barred_signingKey (p : Provider) (issuer token : String) (c : KeyCache) :
    Barred (signingKey p issuer token c).1 := by
  unfold signingKey
  split
  · next herror => exact .error (barred_keyId token _ herror)
  · exact Keys.barred_signingKey p issuer _ c

end Token

namespace Guard

theorem bars_asDenial {e : AccessError} (h : e.Bars) : (asDenial e).Bars := by
  cases e with
  | denied => exact h
  | emptyDocument => exact h
  | unusable => exact h
  | _ =>
    rintro _ _ ⟨⟩
    decide

theorem barred_decoded (i : Identity) (s : Settings) (token : String) (key : Value) :
    Barred (decoded i s token key) := by
  unfold decoded
  split
  · exact .ok _
  · exact .error nofun

theorem barred_verify (i : Identity) (s : Settings) (token : Option String) (c : KeyCache) :
    Barred (verify i s token c).1 := by
  unfold verify
  split
  · exact .ok _
  · split
    · exact .denied _ (by decide)
    · next token =>
      have hkey := (Token.barred_signingKey i.provider s.issuer token c).bind (barred_decoded i s token)
      dsimp only
      generalize (Token.signingKey i.provider s.issuer token c).1 >>= decoded i s token = claims at hkey ⊢
      cases claims with
      | error e => exact .error (bars_asDenial (hkey e rfl))
      | ok claims => exact .ok claims

/-- Whoever administers has a token that says so, signed with a key that was found. -/
theorem grants_of_administrator {i : Identity} {s : Settings} {token : Option String} {c : KeyCache} {v : Value}
    (hauth : s.authEnabled = true) (h : (administrator i s token c).1 = .ok v) :
    ∃ t key claims, token = some t ∧ (Token.signingKey i.provider s.issuer t c).1 = .ok key ∧
      i.decode s t key = .ok claims ∧ Access.Grants s.adminRole claims := by
  obtain ⟨claims, (hclaims : (verify i s token c).1 = .ok claims), hrole⟩ := bind_eq_ok h
  unfold verify at hclaims
  rw [hauth] at hclaims
  cases token with
  | none => cases hclaims
  | some t =>
    obtain ⟨key, hkey, hdecoded⟩ := bind_eq_ok (eq_ok_of_mapError hclaims)
    unfold decoded at hdecoded
    split at hdecoded
    · next hdecode =>
      cases hdecoded
      exact ⟨t, key, _, rfl, hkey, hdecode, Access.grants_of_requireRole hrole⟩
    · cases hdecoded

theorem barred_administrator (i : Identity) (s : Settings) (token : Option String) (c : KeyCache) :
    Barred (administrator i s token c).1 :=
  (barred_verify i s token c).bind (Access.barred_requireRole s.adminRole)

end Guard

end WalletRouting
