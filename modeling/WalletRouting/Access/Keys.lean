import WalletRouting.Access.Basic
import WalletRouting.Address.Basic
import WalletRouting.Json.Reader
import WalletRouting.Text.Base64

/-! # Signing keys

Keys come from the identity provider, by way of the document that says where they are, and are kept per issuer.
A key that is not among those kept is looked for once more in a fresh set, so that keys can be rotated.
-/
namespace WalletRouting
set_option autoImplicit false

/-- What comes back from an address; a page that can be used has a number for its status. -/
structure Page where
  status : Value
  body : Value
  deriving Repr

/-- What the provider answers to a request, given the requests before it; none when it cannot be reached. -/
abbrev Provider := List String → String → Option Page

/-- Key sets by issuer, and every request made so far. -/
structure KeyCache where
  sets : Keyed Value := []
  requests : List String := []
  deriving Repr

namespace Keys

/-- The document on a page, as it is sent: a page without one is empty. -/
def document (v : Value) : Except AccessError Value :=
  if !v.isFinite then .error (.unusable .unreadable)
  else if !v.isWhole then .error (.unusable (.unwritable .brokenName))
  else
    match v with
    | .null => .error .emptyDocument
    | v => .ok v

/-- Whether a status says that what was asked for is there. -/
def isSuccess (status : Number) : Bool := status.reaches (.int 200) && (Number.int 299).reaches status

def page (p : Provider) (requests : List String) (url : String) : Except AccessError Value :=
  match p requests url with
  | none => .error .unreachable
  | some page => do
    let found ← if page.body matches .null then pure .null else document page.body
    match page.status.quantity? with
    | none => throw (.unusable (.wrongForm page.status.formName))
    | some status => if isSuccess status then document found else throw (.refused status)

/-- Asks for a document; the request is noted as the address is written. -/
def get (p : Provider) (url : String) (c : KeyCache) : Except AccessError Value × KeyCache :=
  match Address.read url >>= Address.resolve {} with
  | .error e => (.error (.unusable e.misuse), c)
  | .ok address =>
    (page p c.requests address.toText, { c with requests := c.requests ++ [address.toText] })

def discoveryUrl (issuer : String) : String :=
  String.ofList (issuer.toList.reverse.dropWhile (· = '/')).reverse ++ "/.well-known/openid-configuration"

/-- Where the discovery document says the keys are. -/
def keysUrl (discovery : Value) : Except AccessError String := do
  match ← (discovery.entry "jwks_uri").mapError .unusable with
  | .text url => return url
  | v => throw (.unusable (.wrongForm v.formName))

/-- Whether the keys of a set can be counted. -/
def countable (set : Value) : Except AccessError Unit := do
  let _ ← (← Access.member "keys" (.list []) set).elements.mapError .unusable

/-- Fetches the key set of an issuer. It is kept before it is looked at. -/
def load (p : Provider) (issuer : String) (c : KeyCache) : Except AccessError Value × KeyCache :=
  match get p (discoveryUrl issuer) c with
  | (.error e, c) => (.error e, c)
  | (.ok discovery, c) =>
    match keysUrl discovery with
    | .error e => (.error e, c)
    | .ok url =>
      match get p url c with
      | (.error e, c) => (.error e, c)
      | (.ok set, c) => ((countable set).map fun _ => set, { c with sets := c.sets.put issuer set })

def search (kid : Value) : List Value → Except AccessError (Option Value)
  | [] => .ok none
  | .object ms :: rest =>
    if ((Keyed.get? "kid" ms).getD .null).agrees kid then .ok (some (.object ms)) else search kid rest
  | _ :: _ => .error (.unusable .noMember)

def find (kid : Value) (set : Value) : Except AccessError (Option Value) := do
  search kid (← (← Access.member "keys" (.list []) set).elements.mapError .unusable)

/-- The set that is kept, else a fetched one. -/
def current (p : Provider) (issuer : String) (c : KeyCache) : Except AccessError Value × KeyCache :=
  match c.sets.get? issuer with
  | some set => if set.isPresent then (.ok set, c) else load p issuer c
  | none => load p issuer c

def unknownKey : AccessError := .denied 401 "Unknown token signing key"

def require : Option Value → Except AccessError Value
  | some key => .ok key
  | none => .error unknownKey

/-- The key of an id: from the current set, else from one fetched anew. -/
def signingKey (p : Provider) (issuer : String) (kid : Value) (c : KeyCache) :
    Except AccessError Value × KeyCache :=
  match current p issuer c with
  | (.error e, c) => (.error e, c)
  | (.ok set, c) =>
    match find kid set with
    | .error e => (.error e, c)
    | .ok (some key) => (.ok key, c)
    | .ok none =>
      match load p issuer c with
      | (.error e, c) => (.error e, c)
      | (.ok set, c) => (find kid set >>= require, c)

end Keys

namespace Token

def splitFirst (chars : List Char) : Option (List Char × List Char) :=
  match chars.dropWhile (· ≠ '.') with
  | [] => none
  | _ :: rest => some (chars.takeWhile (· ≠ '.'), rest)

/-- Header, claims and signature of a token that is whole. Only the claims may hold further points. -/
def segments? (token : String) : Option (List Char × List Char × List Char) := do
  if !(Text.isWhole token) then none
  let (signature, body) ← splitFirst (Text.chars token).reverse
  let (header, claims) ← splitFirst body.reverse
  return (header, claims, signature.reverse)

def decodeSegment (chars : List Char) : Option (List UInt8) :=
  Base64.decodeUrl (String.ofList chars).utf8ByteSize chars

/-- The header of a token whose three segments can be decoded; it is an object. -/
def header? (token : String) : Option Value := do
  let (header, claims, signature) ← segments? token
  let text ← String.fromUTF8? (ByteArray.mk (← decodeSegment header).toArray)
  let value ← (Json.read (Text.ofChars text.toList)).toOption
  let _ ← decodeSegment claims
  let _ ← decodeSegment signature
  match value with
  | .object ms => some (.object ms)
  | _ => none

def unreadable : AccessError := .unreadableToken "Error decoding token headers."

/-- The id of the key that a token says it is signed with; null where it does not say. -/
def keyId (token : String) : Except AccessError Value :=
  match header? token with
  | some header => Access.member "kid" .null header
  | none => .error unreadable

def signingKey (p : Provider) (issuer token : String) (c : KeyCache) : Except AccessError Value × KeyCache :=
  match keyId token with
  | .error e => (.error e, c)
  | .ok kid => Keys.signingKey p issuer kid c

end Token

end WalletRouting
