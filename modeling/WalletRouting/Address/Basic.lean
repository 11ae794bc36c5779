import WalletRouting.Address.Host
import WalletRouting.Schema.Misuse
import WalletRouting.Schema.Spelling

/-! # Addresses

An address is a scheme, an authority, a path, a query and a fragment, each of which may be missing. Reading brings
it into one form: small letters in scheme and host, no port that the scheme implies, no levels in the path that
lead nowhere, and percent escapes where they are needed.
-/
namespace WalletRouting
set_option autoImplicit false

def AddressError.misuse : AddressError → Misuse
  | .malformed => .noAddress
  | .broken => .unwritable .brokenName

structure Address where
  scheme : String := ""
  user : String := ""
  host : String := ""
  port : Option Int := none
  path : String := ""
  query : Option String := none
  fragment : Option String := none
  deriving Repr

namespace Address

def lengthLimit : Nat := 65536

def isControl (point : Nat) : Bool := point < 32 || point = 127

def isLetter (point : Nat) : Bool := (65 ≤ point && point ≤ 90) || (97 ≤ point && point ≤ 122)

def isSchemePoint (point : Nat) : Bool := isLetter point || isDigit point || [43, 45, 46].contains point

/-- What stands before the first colon, if it is a scheme or nothing, and the rest. -/
def splitScheme (points : List Nat) : List Nat × List Nat :=
  match points.takeWhile isSchemePoint, points.dropWhile isSchemePoint with
  | scheme, 58 :: rest => if scheme.head?.all isLetter then (scheme, rest) else ([], points)
  | _, _ => ([], points)

/-- The authority, which stands between two slashes and the path. -/
def splitAuthority : List Nat → List Nat × List Nat
  | 47 :: 47 :: rest =>
    (rest.takeWhile fun p => !([47, 63, 35].contains p), rest.dropWhile fun p => !([47, 63, 35].contains p))
  | points => ([], points)

/-- Cuts at the first separator; none where there is none. -/
def splitFirst (separator : Nat) (points : List Nat) : List Nat × Option (List Nat) :=
  match points.dropWhile (· ≠ separator) with
  | [] => (points, none)
  | _ :: rest => (points.takeWhile (· ≠ separator), some rest)

def splitLast (separator : Nat) (points : List Nat) : List Nat × List Nat :=
  match splitFirst separator points.reverse with
  | (_, none) => ([], points)
  | (last, some before) => (before.reverse, last.reverse)

/-- Host and port; a host that begins with a bracket ends at the last one that closes. -/
def splitPort (points : List Nat) : List Nat × List Nat :=
  let bracketed := (splitLast 93 points).1
  let host := if points.head? = some 91 ∧ points.contains 93 then bracketed ++ [93] else points.takeWhile (· ≠ 58)
  match points.drop host.length with
  | 58 :: port => (host, port)
  | port => (host, port)

def impliedPorts : Keyed Int := [("ftp", 21), ("http", 80), ("https", 443), ("ws", 80), ("wss", 443)]

/-- A port in digits of any script; one that the scheme implies is left out. -/
def portOf (scheme : String) (points : List Nat) : Except AddressError (Option Int) :=
  if points.isEmpty then .ok none
  else
    match Schema.spelledInteger? (Text.ofPoints points) with
    | some port => .ok (if impliedPorts.get? scheme = some port then none else some port)
    | none => .error .malformed

/-- The path without segments that stand for the level they are on or for the one above. -/
def withoutLevels (points : List Nat) : List Nat :=
  let up (above : List (List Nat)) : List (List Nat) := if above = [[]] then above else above.dropLast
  Text.joined 47 ((Text.pieces 47 points).foldl
    (fun above s => if s = [46] then above else if s = [46, 46] then up above else above ++ [s]) [])

/-- A path follows an authority with a slash; without scheme and authority it must not look like either. -/
def isPathAllowed (hasScheme hasAuthority : Bool) (points : List Nat) : Bool :=
  if hasAuthority then points.isEmpty || points.head? = some 47
  else hasScheme || !([47, 47].isPrefixOf points || points.head? = some 58)

def escapePart (stays : Nat → Bool) (points : List Nat) : Except AddressError String :=
  (escape stays points).map String.ofList

def escapePart? (stays : Nat → Bool) (points : Option (List Nat)) : Except AddressError (Option String) :=
  points.mapM (escapePart stays)

def ofPoints (points : List Nat) : Except AddressError Address := do
  let (scheme, rest) := splitScheme points
  let (authority, rest) := splitAuthority rest
  let (rest, fragment) := splitFirst 35 rest
  let (path, query) := splitFirst 63 rest
  let (user, rest) := splitLast 64 authority
  let (host, port) := splitPort rest
  let user ← escapePart staysInUser user
  let host ← hostText host
  let port ← portOf (Text.ofPoints scheme) port
  let hasScheme := !scheme.isEmpty
  let hasAuthority := user ≠ "" || host ≠ "" || port.isSome
  if !isPathAllowed hasScheme hasAuthority path then throw .malformed
  return {
    scheme := Text.ofPoints (lowerPoints scheme)
    user := user
    host := host
    port := port
    path := ← escapePart staysInPath (if hasScheme || hasAuthority then withoutLevels path else path)
    query := ← escapePart? staysInQuery query
    fragment := ← escapePart? staysInFragment fragment }

def read (s : String) : Except AddressError Address :=
  let points := Text.points s
  if lengthLimit < points.length ∨ points.any isControl then .error .malformed else ofPoints points

def authority (a : Address) : String :=
  (if a.user = "" then "" else a.user ++ "@") ++
    (if a.host.toList.contains ':' then "[" ++ a.host ++ "]" else a.host) ++
    (match a.port with
    | some port => ":" ++ toString port
    | none => "")

def toText (a : Address) : String :=
  (if a.scheme = "" then "" else a.scheme ++ ":") ++ (if a.authority = "" then "" else "//" ++ a.authority) ++ a.path ++
    (match a.query with
    | some query => "?" ++ query
    | none => "") ++
    (match a.fragment with
    | some fragment => "#" ++ fragment
    | none => "")

def target (a : Address) : String := if a.path = "" then "/" else a.path

/-- An address that names no scheme or no host is looked up below another one, from where only its path and its query
lead. -/
def resolve (base a : Address) : Except AddressError Address :=
  if a.scheme ≠ "" ∧ a.host ≠ "" then .ok a
  else
    let path := 47 :: (Text.points a.target).dropWhile (· = 47)
    let query := a.query.getD ""
    if lengthLimit < path.length ∨ lengthLimit < query.length then .error .malformed
    else .ok { base with
      path := Text.ofPoints (if base.scheme = "" ∧ base.authority = "" then path else withoutLevels path)
      query := a.query }

end Address

end WalletRouting
