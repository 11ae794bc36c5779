import WalletRouting.Policy.Rule
import WalletRouting.Text.Quoted

/-! # Rules as text

The one-line form of a rule, `IF condition THEN action`, that explanations quote.
-/
namespace WalletRouting
set_option autoImplicit false

namespace Value

mutual

/-- A value inside a list or an object: texts quoted, truth values and null capitalised, numbers exact. -/
def nested : Value → String
  | .null => "None"
  | .bool true => "True"
  | .bool false => "False"
  | .num n => n.exactText
  | .text s => Text.quoted s
  | .list xs => "[" ++ nestedItems xs ++ "]"
  | .object ms => "\x7b" ++ nestedMembers ms ++ "\x7d"
  | .unresolved => "UNRESOLVED"

def nestedItems : List Value → String
  | [] => ""
  | [x] => nested x
  | x :: xs => nested x ++ ", " ++ nestedItems xs

def nestedMembers : List (String × Value) → String
  | [] => ""
  | [(k, v)] => Text.quoted k ++ ": " ++ nested v
  | (k, v) :: ms => Text.quoted k ++ ": " ++ nested v ++ ", " ++ nestedMembers ms

end

def amountText (n : Number) : String :=
  match n with
  | .int n => toString n
  | .float x =>
    match Double.whole? x with
    | some n => toString n
    | none => x.exactText

/-- A value standing alone: texts bare, whole numbers without a point. -/
def plain : Value → String
  | .null => "null"
  | .bool true => "true"
  | .bool false => "false"
  | .num n => amountText n
  | .text s => s
  | v => v.nested

end Value

/-- The bounds an object value can set, the first one present counting. -/
inductive Bound where
  | gt
  | lt
  | gte
  | lte
  deriving DecidableEq, Repr

namespace Bound

def all : List Bound := [.gt, .lt, .gte, .lte]

def operator : Bound → Operator
  | .gt => .gt
  | .lt => .lt
  | .gte => .gte
  | .lte => .lte

def key (b : Bound) : String := b.operator.name

/-- The first bound an object holds, with its limit. -/
def first? (members : Keyed Value) : Option (Bound × Value) :=
  all.findSome? fun b => (members.get? b.key).map fun v => (b, v)

end Bound

namespace Value

/-- The right side of a comparison. -/
def operand : Value → String
  | .list xs => "[" ++ ", ".intercalate (xs.map plain) ++ "]"
  | .text s => "\"" ++ s ++ "\""
  | .object ms =>
    match Bound.first? ms with
    | some (b, limit) => b.operator.symbol ++ " " ++ limit.plain
    | none => (Value.object ms).plain
  | v => v.plain

end Value

namespace Condition

mutual

/-- A node's comparison, then its children in parentheses: those that must all hold, then those of which one must. -/
def snippet : Condition → String
  | .node field operator bound all any =>
    joined " OR " (joined " AND " (field ++ " " ++ operator.symbol ++ " " ++ bound.operand) (branchSnippets all))
      (branchSnippets any)

def branchSnippets : Option (List Condition) → List String
  | none => []
  | some cs => snippets cs

def snippets : List Condition → List String
  | [] => []
  | c :: cs => snippet c :: snippets cs

/-- A text and more of its kind, in parentheses with a word between; alone it stays as it is. -/
def joined (word own : String) (more : List String) : String :=
  if more.isEmpty then own else "(" ++ own ++ word ++ word.intercalate more ++ ")"

end

end Condition

namespace Action

def amountOrZero : Option Double → Number
  | some x => if x == 0.0 then .int 0 else .float x
  | none => .int 0

def snippet (a : Action) : String :=
  match a.type with
  | .force =>
    "FORCE " ++ (match a.target with
    | some id => if id = "" then "credential" else id
    | none => "credential")
  | .exclude =>
    match a.property with
    | some property =>
      if property = "" then "EXCLUDE credential"
      else "EXCLUDE credentials WHERE " ++ property ++ " " ++ a.propertyValue.operand
    | none => "EXCLUDE credential"
  | .boost => "BOOST score +" ++ Value.amountText (amountOrZero a.boost)
  | .penalize => "PENALIZE score -" ++ Value.amountText (amountOrZero a.penalty)
  | .block => "BLOCK transaction"

end Action

namespace Rule

def freshSnippet (r : Rule) : String := "IF " ++ r.condition.snippet ++ " THEN " ++ r.action.snippet

/-- The text a rule is quoted by: the one stored with it unless that is empty, else a fresh one. -/
def snippet (r : Rule) : String :=
  match r.compiled with
  | some s => if s = "" then r.freshSnippet else s
  | none => r.freshSnippet

end Rule

end WalletRouting
