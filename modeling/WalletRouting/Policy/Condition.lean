import WalletRouting.Policy.Field

/-! # Evaluating a condition tree

`Condition.evaluate` is the tree over any truth of its comparisons, `Condition.holds` the tree over a
transaction, an instrument and a user.
-/
namespace WalletRouting
set_option autoImplicit false

namespace Condition

def hasChildren : Option (List Condition) → Bool
  | some (_ :: _) => true
  | _ => false

mutual

/-- Children that must all hold take precedence; a node with both kinds ignores the others. -/
def evaluate (truth : String → Operator → Value → Bool) : Condition → Bool
  | .node field operator bound all any =>
    if hasChildren all then truth field operator bound && allHold truth all
    else truth field operator bound || anyHolds truth any

def allHold (truth : String → Operator → Value → Bool) : Option (List Condition) → Bool
  | none => true
  | some cs => everyHolds truth cs

def anyHolds (truth : String → Operator → Value → Bool) : Option (List Condition) → Bool
  | none => false
  | some cs => someHolds truth cs

def everyHolds (truth : String → Operator → Value → Bool) : List Condition → Bool
  | [] => true
  | c :: cs => evaluate truth c && everyHolds truth cs

def someHolds (truth : String → Operator → Value → Bool) : List Condition → Bool
  | [] => false
  | c :: cs => evaluate truth c || someHolds truth cs

end

def comparison (t : Transaction) (i : Instrument) (u : User) (field : String) (op : Operator) (bound : Value) :
    Bool :=
  op.holds (Field.resolve field t i u) bound

def holds (c : Condition) (t : Transaction) (i : Instrument) (u : User) : Bool :=
  c.evaluate (comparison t i u)

end Condition

end WalletRouting
