import WalletRouting.Draws

/-! # Requests to a generator

Requests are answered one after another from one stream. `DrawRequest.cost` says how many words a request
spends: that depends on its kind and on what comes with it, never on what is drawn.
-/
namespace WalletRouting
set_option autoImplicit false

inductive DrawRequest (α : Type) where
  | unit
  | whole (low high : Number)
  | double (low high : Number)
  | chance (probability : Number)
  | pick (items : List α)
  /-- Picks where nothing stands at a place; the draw is spent all the same. -/
  | pickUnplaced
  | shuffle (items : List α)
  | latency (low high : Number)
  | correlationId
  | score (base variance : Number)
  | decline (base : Number)
  | approval (declineProbability : Number)
  | seed
  | reset
  /-- What comes with the request is not of its kind; a draw may be spent before that is found. -/
  | illTyped (spends : Bool)
  deriving Repr

inductive Drawn (α : Type) where
  | number (n : Number)
  | flag (b : Bool)
  | text (s : String)
  | item (a : α)
  | items (as : List α)
  | nothing
  | undefined (e : NumberError)
  /-- There was nothing to pick from. -/
  | noItem
  /-- What there was to pick from was not to be found at a place. -/
  | noPlace
  /-- What came with the request was not of its kind. -/
  | refused
  deriving Repr

namespace Drawn

variable {α : Type}

def ofNumber {β : Type} (number : β → Number) : Except NumberError β → Drawn α
  | .ok b => .number (number b)
  | .error e => .undefined e

def ofItem : Option α → Drawn α
  | some a => .item a
  | none => .noItem

end Drawn

namespace DrawRequest

variable {α : Type}

def answer (r : DrawRequest α) (g : Generator) : Drawn α × Generator :=
  match r with
  | .unit => (.number (.float g.unit.1), g.unit.2)
  | .whole low high => (.ofNumber (fun n => n) (g.wholeBetween low high).1, (g.wholeBetween low high).2)
  | .double low high => (.ofNumber .float (g.doubleBetween low high).1, (g.doubleBetween low high).2)
  | .chance p => (.flag (g.chance p).1, (g.chance p).2)
  | .pick items => (.ofItem (g.pick items).1, (g.pick items).2)
  | .pickUnplaced => (.noPlace, g.advance)
  | .shuffle items => (.items (g.shuffle items).1, (g.shuffle items).2)
  | .latency low high => (.ofNumber .int (g.latency low high).1, (g.latency low high).2)
  | .correlationId => (.text g.correlationId.1, g.correlationId.2)
  | .score base variance => (.ofNumber .float (g.scoreAround base variance).1, (g.scoreAround base variance).2)
  | .decline base => (.ofNumber .float (g.declineAround base).1, (g.declineAround base).2)
  | .approval p => (.flag (g.approves p).1, (g.approves p).2)
  | .seed => (.number (.int g.seed), g)
  | .reset => (.nothing, g.reset)
  | .illTyped spends => (.refused, if spends then g.advance else g)

def cost : DrawRequest α → Nat
  | .shuffle items => items.length - 1
  | .correlationId => 32
  | .decline base => if (Generator.hundredth base).toOption.isSome then 1 else 0
  | .seed => 0
  | .reset => 0
  | .illTyped spends => if spends then 1 else 0
  | _ => 1

def rewinds : DrawRequest α → Bool
  | .reset => true
  | _ => false

def answers : List (DrawRequest α) → Generator → List (Drawn α) × Generator
  | [], g => ([], g)
  | r :: rest, g =>
    let (drawn, g) := r.answer g
    let (others, g) := answers rest g
    (drawn :: others, g)

end DrawRequest

end WalletRouting
