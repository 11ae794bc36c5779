import WalletRouting.Value.Basic

/-! # Reading values into records

A reader answers with the record or with every issue it found, each at its path. Fields are read in
the order in which a record declares them, and issues keep that order, depth first.
-/
namespace WalletRouting
set_option autoImplicit false

namespace Schema

inductive Step where
  | key (name : String)
  | index (i : Nat)
  deriving DecidableEq, Repr

inductive Problem where
  | missing
  | notText
  | brokenText
  | notNumber
  | unreadableNumber
  | notInteger
  | unreadableInteger
  | oversizedInteger
  | fractional
  | notFinite
  | notFlag
  | unreadableFlag
  | unknownMember
  | unknownLiteral
  | below
  | above
  | notList
  | notMap
  | notRecord
  | notAttributes
  | tagMissing
  | tagUnknown
  | tooDeep
  | undeclared
  deriving DecidableEq, Repr

def Problem.name : Problem → String
  | .missing => "missing"
  | .notText => "string_type"
  | .brokenText => "string_unicode"
  | .notNumber => "float_type"
  | .unreadableNumber => "float_parsing"
  | .notInteger => "int_type"
  | .unreadableInteger => "int_parsing"
  | .oversizedInteger => "int_parsing_size"
  | .fractional => "int_from_float"
  | .notFinite => "finite_number"
  | .notFlag => "bool_type"
  | .unreadableFlag => "bool_parsing"
  | .unknownMember => "enum"
  | .unknownLiteral => "literal_error"
  | .below => "greater_than_equal"
  | .above => "less_than_equal"
  | .notList => "list_type"
  | .notMap => "dict_type"
  | .notRecord => "model_type"
  | .notAttributes => "model_attributes_type"
  | .tagMissing => "union_tag_not_found"
  | .tagUnknown => "union_tag_invalid"
  | .tooDeep => "recursion_loop"
  | .undeclared => "extra_forbidden"

def Step.toValue : Step → Value
  | .key name => .text (Text.mended name)
  | .index i => .nat i

structure Issue where
  problem : Problem
  path : List Step
  input : Value
  deriving Repr

inductive Checked (α : Type) where
  | ok (a : α)
  | bad (issues : List Issue)
  deriving Repr

namespace Checked

variable {α β : Type}

def map (f : α → β) : Checked α → Checked β
  | .ok a => .ok (f a)
  | .bad issues => .bad issues

/-- Both sides are read, and the issues of both are kept. -/
def apply (f : Checked (α → β)) (a : Checked α) : Checked β :=
  match f, a with
  | .ok f, .ok a => .ok (f a)
  | .ok _, .bad issues => .bad issues
  | .bad issues, .ok _ => .bad issues
  | .bad issues, .bad more => .bad (issues ++ more)

instance : Applicative Checked where
  pure := .ok
  map := map
  seq f a := apply f (a ())

@[simp] theorem map_ok (f : α → β) (a : α) : f <$> Checked.ok a = .ok (f a) := rfl

@[simp] theorem seq_ok (f : α → β) (a : α) : Checked.ok f <*> Checked.ok a = .ok (f a) := rfl

/-- The same outcome found one step further down. -/
def within (s : Step) : Checked α → Checked α
  | .ok a => .ok a
  | .bad issues => .bad (issues.map fun i => { i with path := s :: i.path })

@[simp] theorem within_ok (s : Step) (a : α) : (Checked.ok a).within s = .ok a := rfl

def toExcept : Checked α → Except (List Issue) α
  | .ok a => .ok a
  | .bad issues => .error issues

def issues : Checked α → List Issue
  | .ok _ => []
  | .bad found => found

def get? : Checked α → Option α
  | .ok a => some a
  | .bad _ => none

/-- The results for a list, or the issues of the first element that has any. -/
def each (f : α → Checked β) : List α → Checked (List β)
  | [] => .ok []
  | a :: rest =>
    match f a with
    | .bad issues => .bad issues
    | .ok b => (each f rest).map (b :: ·)

end Checked

abbrev Read (α : Type) := Value → Checked α

def issue {α : Type} (p : Problem) (input : Value) : Checked α := .bad [⟨p, [], input⟩]

/-- The first line of the text that reports the issues found in a record. -/
def summary (record : String) (issues : List Issue) : String :=
  toString issues.length ++ (if issues.length = 1 then " validation error for " else " validation errors for ") ++
    record

/-- An issue as it is reported: its name and where it is. -/
def Issue.report (i : Issue) : Value := .object
  [("type", .text i.problem.name), ("loc", .list (i.path.map Step.toValue))]

/-- Issues as they read for a request body, where a record may come as any object with attributes. -/
def Issue.ofRequest (i : Issue) : Issue :=
  if i.problem = .notRecord then { i with problem := .notAttributes } else i

end Schema

end WalletRouting
