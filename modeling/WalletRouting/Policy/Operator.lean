import WalletRouting.Text.Lower
import WalletRouting.Wallet.Credential

/-! # Comparisons

A field of a transaction reads as a value, as a signup bonus, or not at all. Every comparison with a
missing reading is false, the negative ones included.
-/
namespace WalletRouting
set_option autoImplicit false

inductive Reading where
  | missing
  | bonus (b : SignupBonus)
  | value (v : Value)
  deriving Repr

namespace Reading

/-- Equality with a written value; a signup bonus equals none. -/
def equals : Reading → Value → Bool
  | .value v, w => v.equals w
  | _, _ => false

def number? : Reading → Option Number
  | .value (.num n) => some n
  | _ => none

def ofOption {α : Type} (f : α → Value) : Option α → Reading
  | none => .missing
  | some a => .value (f a)

end Reading

inductive Operator where
  | eq
  | neq
  | isIn
  | notIn
  | gt
  | lt
  | gte
  | lte
  | contains
  deriving DecidableEq, Repr

namespace Operator

def all : List Operator := [.eq, .neq, .isIn, .notIn, .gt, .lt, .gte, .lte, .contains]

def name : Operator → String
  | .eq => "eq"
  | .neq => "neq"
  | .isIn => "in"
  | .notIn => "not_in"
  | .gt => "gt"
  | .lt => "lt"
  | .gte => "gte"
  | .lte => "lte"
  | .contains => "contains"

def named : Keyed Operator := all.map fun o => (o.name, o)

def symbol : Operator → String
  | .eq => "="
  | .neq => "!="
  | .isIn => "IN"
  | .notIn => "NOT IN"
  | .gt => ">"
  | .lt => "<"
  | .gte => ">="
  | .lte => "<="
  | .contains => "CONTAINS"

/-- The verdict of an ordering operator on where the left side lies. -/
def admits : Operator → Ordering → Bool
  | .gt, .gt => true
  | .lt, .lt => true
  | .gte, .gt => true
  | .gte, .eq => true
  | .lte, .lt => true
  | .lte, .eq => true
  | _, _ => false

/-- Ordering of two numbers; false when either side is no number. -/
def orders (op : Operator) (a b : Option Number) : Bool :=
  match a, b with
  | some a, some b =>
    match a.compare? b with
    | some o => op.admits o
    | none => false
  | _, _ => false

def amongItems (r : Reading) : Value → Bool
  | .list items => items.any r.equals
  | _ => false

/-- Whether a reading that is there compares as the operator asks. -/
def compares (op : Operator) (r : Reading) (bound : Value) : Bool :=
  match op with
  | .eq => r.equals bound
  | .neq => !(r.equals bound)
  | .isIn => amongItems r bound
  | .notIn => !(amongItems r bound)
  | .gt | .lt | .gte | .lte => op.orders r.number? (Reading.value bound).number?
  | .contains =>
    match r with
    | .value (.text s) =>
      match bound with
      | .text t => Text.containsIgnoringCase s t
      | _ => false
    | .value (.list items) => items.any fun v => v.equals bound
    | _ => false

def holds (op : Operator) (r : Reading) (bound : Value) : Bool :=
  match r with
  | .missing => false
  | r => op.compares r bound

@[simp] theorem holds_missing (op : Operator) (bound : Value) : op.holds .missing bound = false := rfl

end Operator

end WalletRouting
