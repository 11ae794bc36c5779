import WalletRouting.Access.Keys
import WalletRouting.Settings
import WalletRouting.Text.Character

/-! # Guarding the policy

A request is let through with the claims of its token, or it is denied. Without authentication everybody is an
administrator.
-/
namespace WalletRouting
set_option autoImplicit false

/-- Where claims come from: the provider serves the keys, and `decode` answers with the claims of a valid token or
says what is wrong with it. -/
structure Identity where
  provider : Provider
  decode : Settings → String → Value → Except String Value

namespace Guard

def developerClaims (s : Settings) : Value := .object
  [("sub", .text "dev-user"), ("roles", .list [.text s.adminRole])]

def decoded (i : Identity) (s : Settings) (token : String) (key : Value) : Except AccessError Value :=
  match i.decode s token key with
  | .ok claims => .ok claims
  | .error message => .error (.unreadableToken message)

/-- A token that cannot be trusted is unauthorised; a provider that cannot be asked is unavailable. -/
def asDenial : AccessError → AccessError
  | .unreadableToken message => .denied 401 ("Token validation failed: " ++ message)
  | .unreachable => .denied 503 "Identity provider unavailable"
  | .refused _ => .denied 503 "Identity provider unavailable"
  | e => e

def verify (i : Identity) (s : Settings) (token : Option String) (c : KeyCache) :
    Except AccessError Value × KeyCache :=
  if !s.authEnabled then (.ok (developerClaims s), c)
  else
    match token with
    | none => (.error (.denied 401 "Missing authorization header"), c)
    | some token =>
      let (key, c) := Token.signingKey i.provider s.issuer token c
      ((key >>= decoded i s token).mapError asDenial, c)

/-- The token of an authorization header: what follows the word "bearer" and a space, without blanks around it. -/
def bearer? (header : Option String) : Option String := do
  let header ← header
  let scheme := header.toList.takeWhile (· ≠ ' ')
  let token := Text.strip (header.toList.dropWhile (· ≠ ' '))
  if scheme.map Char.toLower = "bearer".toList ∧ token ≠ [] then some (String.ofList token) else none

def administrator (i : Identity) (s : Settings) (token : Option String) (c : KeyCache) :
    Except AccessError Value × KeyCache :=
  let (claims, c) := verify i s token c
  (claims >>= Access.requireRole s.adminRole, c)

end Guard

end WalletRouting
