import WalletRouting.Address.Basic
import WalletRouting.Json.Printer
import WalletRouting.Service.Request
import WalletRouting.Text.Utf8

/-! # Calls

A call says what a client is to ask of the service, and becomes a request unless it cannot be sent. What is wrong with
its address is found first, then what is wrong with its headers, its method and its body.
-/
namespace WalletRouting
set_option autoImplicit false

inductive Content where
  | none
  | json (v : Value)
  | raw (v : Value)
  deriving Repr

structure Call where
  method : Value
  address : Value
  headers : Value
  content : Content
  deriving Repr

namespace Call

/-- Letters outside ASCII that ASCII letters stand for where capitals are asked for. -/
def capitalsOf : List (Char × List Char) :=
  [('\u00df', ['S', 'S']), ('\u0131', ['I']), ('\u017f', ['S']), ('\ufb00', ['F', 'F']), ('\ufb01', ['F', 'I']),
   ('\ufb02', ['F', 'L']), ('\ufb03', ['F', 'F', 'I']), ('\ufb04', ['F', 'F', 'L']), ('\ufb05', ['S', 'T']),
   ('\ufb06', ['S', 'T'])]

/-- A character in ASCII capitals, if it has them. -/
def capitals (c : Char) : List Char :=
  match capitalsOf.find? fun entry => entry.1 = c with
  | some entry => entry.2
  | none => [c.toUpper]

def methodOf (v : Value) : Except Misuse String :=
  match v with
  | .text s => .ok (String.ofList (s.toList.flatMap capitals))
  | _ => .error .noMember

/-- Where addresses without a host lead. -/
def home : Address := { scheme := "http", host := "service" }

def pathOf (v : Value) : Except Misuse String :=
  match v with
  | .text s =>
    match Address.read s >>= home.resolve with
    | .ok a => .ok (Text.ofChars (Text.ofUtf8 (Address.unescape a.target.toUTF8.toList)))
    | .error e => .error e.misuse
  | v => .error (.wrongForm v.formName)

def plain (s : String) : Except Misuse String :=
  if s.toList.all fun c => c.toNat < 128 then .ok s else .error (.unwritable .brokenName)

def header (entry : String × Value) : Except Misuse (String × String) := do
  let name ← plain entry.1
  match entry.2 with
  | .text s => return (name, ← plain s)
  | v => throw (.wrongForm v.formName)

def headersOf (v : Value) : Except Misuse (List (String × String)) :=
  match v with
  | .object ms => ms.mapM header
  | .null => .ok []
  | v => .error (.wrongForm v.formName)

def bodyOf (c : Content) : Except Misuse (Option String) :=
  match c with
  | .none => .ok none
  | .json .null => .ok none
  | .json v =>
    if !v.isFinite then .error .unreadable
    else if v.isWhole then .ok (some v.compact)
    else .error (.unwritable .brokenName)
  | .raw (.text s) => if Text.isWhole s then .ok (some s) else .error (.unwritable .brokenName)
  | .raw .null => .ok none
  | .raw v => .error (.wrongForm v.formName)

def request (c : Call) : Except Misuse Request := do
  let path ← pathOf c.address
  let headers ← headersOf c.headers
  let method ← methodOf c.method
  return ⟨method, path, headers, ← bodyOf c.content⟩

end Call

end WalletRouting
