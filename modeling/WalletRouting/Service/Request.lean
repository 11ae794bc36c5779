import WalletRouting.Json.Encoding
import WalletRouting.Schema.Basic
import WalletRouting.Text.Character

/-! # Requests and replies

The segments of a path decide the endpoint. A reply is JSON or plain text. JSON holds no number that is not finite,
so null is sent for one; what holds half of a surrogate pair cannot be sent at all.
-/
namespace WalletRouting
set_option autoImplicit false

/-- The method is in capitals, and the path is without escapes. -/
structure Request where
  method : String
  path : String
  headers : List (String × String)
  body : Option String
  deriving Repr

namespace Request

def segmentsOf (path : List Char) : List String := (Text.pieces '/' (path.drop 1)).map String.ofList

def header? (name : String) (r : Request) : Option String :=
  (r.headers.find? fun h => h.1.toList.map Char.toLower = name.toList.map Char.toLower).map Prod.snd

/-- Whether a content type is JSON, or something that is written as JSON; parameters of the type do not count. -/
def namesJson (type : String) : Bool :=
  let kind := (Text.strip (type.toList.takeWhile (· ≠ ';'))).map Char.toLower
  match Text.pieces '/' kind with
  | [main, sub] => main = "application".toList && (sub = "json".toList || "+json".toList.isSuffixOf sub)
  | _ => false

/-- Whether the body is said to be something else than JSON. -/
def otherContent (r : Request) : Bool :=
  match r.header? "content-type" with
  | none => false
  | some type => !(namesJson type)

end Request

inductive Payload where
  | json (v : Value)
  | text (s : String)
  deriving Repr

structure Reply where
  status : Nat
  payload : Payload
  deriving Repr

namespace Reply

def failure : Reply := ⟨500, .text "Internal Server Error"⟩

/-- Redirects to another path; where that is does not show. -/
def redirect : Reply := ⟨307, .text ""⟩

def json (status : Nat) (v : Value) : Reply := if v.isWhole then ⟨status, .json v.finitePart⟩ else failure

/-- A record that has parts of any form, some of which may be such that they cannot be written. -/
def record (status : Nat) (e : Option WriteError) (v : Value) : Reply := if e.isSome then failure else json status v

def ok (v : Value) : Reply := json 200 v

def detail (status : Nat) (v : Value) : Reply := json status (.object [("detail", v)])

def message (status : Nat) (s : String) : Reply := detail status (.text s)

/-- The report of issues. It quotes what was refused, and fails where that cannot be quoted. -/
def issues (found : List Schema.Issue) : Reply :=
  if found.all fun i => i.input.isFinite && i.input.isWhole then detail 422 (.list (found.map Schema.Issue.report))
  else failure

/-- What is reported of a body that is no JSON. -/
def malformed (offset : Nat) : Reply := detail 422 (.list [.object
  [("type", .text "json_invalid"), ("loc", .list [.text "body", .nat offset])]])

/-- The answer to a body that cannot be read, though not for being malformed. -/
def unreadable : Reply := message 400 "There was an error parsing the body"

def isSuccess (r : Reply) : Bool := 200 ≤ r.status && r.status < 300

end Reply

end WalletRouting
