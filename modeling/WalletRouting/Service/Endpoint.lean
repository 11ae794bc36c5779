import WalletRouting.Service.Request

/-! # Endpoints -/
namespace WalletRouting
set_option autoImplicit false

inductive Endpoint where
  | index
  | health
  | route
  | difference
  | versions
  | active
  | addRule
  | updateRule (id : String)
  | removeRule (id : String)
  | reorderRules
  | validateRule
  | pin
  | unpin
  | setCached (version : String)
  | fetch
  | reset
  deriving DecidableEq, Repr

inductive Lookup where
  | found (e : Endpoint)
  | wrongMethod
  /-- Something is to be found where the slashes at the end are left out. -/
  | elsewhere
  | nothing
  deriving DecidableEq, Repr

namespace Endpoint

/-- The word that a segment is, or is with one line end after it. -/
def word (segment : String) : String :=
  match segment.toList.reverse with
  | '\n' :: rest => String.ofList rest.reverse
  | _ => segment

/-- What may be asked of a rule. Some ids are also words; an id keeps a line end that a word may have after it. -/
def offeredFor (rule : String) : List (String × Endpoint) :=
  if rule = "" then []
  else
    [("PATCH", .updateRule rule), ("DELETE", .removeRule rule)] ++
      (if word rule = "order" then [("PUT", .reorderRules)] else []) ++
      (if word rule = "validate" then [("POST", .validateRule)] else [])

def offeredByName (name : String) : List (String × Endpoint) :=
  (Keyed.get? name
    [("versions", [("GET", .versions)]),
     ("active", [("GET", .active)]),
     ("rules", [("POST", .addRule)]),
     ("pin", [("PUT", .pin), ("DELETE", .unpin)]),
     ("fetch", [("POST", .fetch)]),
     ("reset", [("POST", .reset)])]).getD []

/-- The endpoints of the policy, by method, at the rest of a path. -/
def offeredByPolicy : List String → List (String × Endpoint)
  | [name] => offeredByName (word name)
  | ["rules", rule] => offeredFor rule
  | ["versions", version, flag] => if version ≠ "" ∧ word flag = "cache" then [("PUT", .setCached version)] else []
  | _ => []

def offeredToWallets (name : String) : List (String × Endpoint) :=
  (Keyed.get? name
    [("route", [("POST", .route)]),
     ("diff", [("POST", .difference)]),
     ("health", [("GET", .health)])]).getD []

def offered : List String → List (String × Endpoint)
  | [name] => if word name = "" then [("GET", .index)] else []
  | ["v1", "stop", name] => offeredToWallets (word name)
  | "v1" :: "admin" :: "policy" :: rest => offeredByPolicy rest
  | _ => []

def trimSlashes (path : List Char) : List Char := (path.reverse.dropWhile (· = '/')).reverse

def lookup (method : String) (path : List Char) : Lookup :=
  match offered (Request.segmentsOf path) with
  | [] =>
    if path.getLast? = some '/' ∧ !(trimSlashes path).isEmpty ∧
        !(offered (Request.segmentsOf (trimSlashes path))).isEmpty then .elsewhere
    else .nothing
  | endpoints =>
    match Keyed.get? method endpoints with
    | some e => .found e
    | none => .wrongMethod

def ofRequest (r : Request) : Lookup := lookup r.method r.path.toList

/-- Endpoints for administrators only. -/
def guarded : Endpoint → Bool
  | .index | .health | .route | .difference => false
  | _ => true

def takesBody : Endpoint → Bool
  | .route | .difference | .addRule | .updateRule _ | .reorderRules | .validateRule | .pin | .setCached _ | .fetch =>
    true
  | _ => false

end Endpoint

end WalletRouting
