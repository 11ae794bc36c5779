import WalletRouting.Draws.Request
import WalletRouting.Schema.Misuse

/-! # Requests by name

A request may come as a name with arguments. Arguments of another number or kind than the request takes are
refused; some requests draw before they look at what they were given.
-/
namespace WalletRouting
set_option autoImplicit false

namespace DrawRequest

/-- The elements of a list, the characters of a text, or the names in an object. -/
def elements? (v : Value) : Option (List Value) := v.elements.toOption

/-- What is picked from an object would have to stand at a place. -/
def ofPick (v : Value) : Option (DrawRequest Value) :=
  match v with
  | .object _ => some .pickUnplaced
  | v => (elements? v).map .pick

def typed {α : Type} (spends : Bool) (request : α → DrawRequest Value) : Option α → DrawRequest Value
  | some a => request a
  | none => .illTyped spends

def bounds? (low high : Value) : Option (Number × Number) := do return (← low.quantity?, ← high.quantity?)

/-- How far scores vary where nothing is said. -/
def defaultVariance : Number := .int 15

/-- The request that a name and arguments make; none if the name is of no request. -/
def ofCall? (name : String) (args : List Value) : Option (DrawRequest Value) :=
  match name with
  | "random" => some (if args.isEmpty then .unit else .illTyped false)
  | "random_int" => some (ofBounds .whole args)
  | "random_float" => some (ofBounds .double args)
  | "random_bool" => some <|
    match args with
    | [] => .chance (.float 0.5)
    | [p] => typed true .chance p.quantity?
    | _ => .illTyped false
  | "pick" => some (ofOne true (fun r => r) ofPick args)
  | "shuffle" => some (ofOne false .shuffle elements? args)
  | "get_latency" => some (ofBounds .latency args)
  | "generate_correlation_id" => some (if args.isEmpty then .correlationId else .illTyped false)
  | "get_risk_score" => some <|
    match args with
    | [base] => typed true (.score · defaultVariance) base.quantity?
    | args => ofBounds .score args
  | "get_decline_probability" => some (ofOne false .decline Value.quantity? args)
  | "simulate_auth_result" => some (ofOne true .approval Value.quantity? args)
  | "seed" => some .seed
  | "reset" => some (if args.isEmpty then .reset else .illTyped false)
  | _ => none
where
  ofOne {α : Type} (spends : Bool) (request : α → DrawRequest Value) (read : Value → Option α) :
      List Value → DrawRequest Value
    | [v] => typed spends request (read v)
    | _ => .illTyped false
  ofBounds (request : Number → Number → DrawRequest Value) : List Value → DrawRequest Value
    | [low, high] => typed true (fun b => request b.1 b.2) (bounds? low high)
    | _ => .illTyped false

end DrawRequest

end WalletRouting
