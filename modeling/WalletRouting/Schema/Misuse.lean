import WalletRouting.Schema.Basic

/-! # Values taken as they come

Some of what an input holds is looked at only when it is used. A use then fails for the form of the value or for what is
not in it, and nothing is said about the values that were not reached.
-/
namespace WalletRouting
set_option autoImplicit false

inductive Misuse where
  /-- The value is not of a form for this use. -/
  | wrongForm (message : String)
  /-- Nothing stands under the name that was asked for. -/
  | noEntry
  /-- Nothing stands at the place that was asked for. -/
  | noPlace
  /-- The value has no members to ask for. -/
  | noMember
  /-- The value is of the right form and says nothing that could be understood. -/
  | unreadable
  /-- The text is no address. -/
  | noAddress
  /-- No record is of that kind alone. -/
  | noKind
  | number (e : NumberError)
  | unwritable (e : WriteError)
  | issues (found : List Schema.Issue)
  deriving Repr

namespace Misuse

def message : Misuse → String
  | .wrongForm message => message
  | .noEntry => "nothing under that name"
  | .noPlace => "nothing at that place"
  | .noMember => "no members"
  | .unreadable => "not to be understood"
  | .noAddress => "no address"
  | .noKind => "no kind of its own"
  | .number e => e.message
  | .unwritable _ => "not to be written"
  | .issues found => Schema.summary "input" found

end Misuse

namespace Schema.Checked

/-- Issues as a reason why a value could not be used. -/
def usable {α : Type} : Checked α → Except Misuse α
  | .ok a => .ok a
  | .bad found => .error (.issues found)

end Schema.Checked

namespace Value

/-- The name of a form, as it is told to who used a value of another one. -/
def formName : Value → String
  | .null => "NoneType"
  | .bool _ => "bool"
  | .num (.int _) => "int"
  | .num (.float _) => "float"
  | .text _ => "str"
  | .list _ => "list"
  | .object _ => "dict"
  | .unresolved => "_Unresolved"

/-- Says that a double cannot be compared with a value. -/
def incomparable (comparison : String) (v : Value) : Misuse :=
  .wrongForm ("'" ++ comparison ++ "' not supported between instances of 'float' and '" ++ v.formName ++ "'")

/-- What a value consists of: the items of a list, the characters of a text, the names of the members of an object. -/
def elements : Value → Except Misuse (List Value)
  | .list xs => .ok xs
  | .text s => .ok ((Text.elements s).map .text)
  | .object ms => .ok (ms.map fun (k, _) => .text k)
  | v => .error (.wrongForm ("'" ++ v.formName ++ "' object is not iterable"))

def entry (name : String) : Value → Except Misuse Value
  | .object ms =>
    match Keyed.get? name ms with
    | some v => .ok v
    | none => .error .noEntry
  | v => .error (.wrongForm ("'" ++ v.formName ++ "' object is not subscriptable"))

def entry? (name : String) : Value → Except Misuse (Option Value)
  | .object ms => .ok (Keyed.get? name ms)
  | _ => .error .noMember

def place (i : Nat) (v : Value) : Except Misuse Value :=
  match v with
  | .object _ => .error .noEntry
  | v => do
    match (← v.elements)[i]? with
    | some x => return x
    | none => throw .noPlace

def isAtomic : Value → Bool
  | .list _ => false
  | .object _ => false
  | _ => true

/-- The elements of a value, none of which is a list or an object. -/
def atoms (v : Value) : Except Misuse (List Value) := do
  let xs ← v.elements
  if xs.all isAtomic then return xs else throw (.wrongForm "unhashable type")

def text? : Value → Option String
  | .text s => some s
  | _ => none

end Value

end WalletRouting
