import WalletRouting.Draws.Seed
import WalletRouting.Registry.Given
import WalletRouting.Run.Operation
import WalletRouting.Settings.Given

/-! # Worlds and commands as they are given

A world is opened with a registry and a clock of any form. A command is a name with arguments; it is read against the
registry as it stands, since an argument is looked at only when what it is for has been found.
-/
namespace WalletRouting
set_option autoImplicit false

namespace Clock

/-- The clock that an object gives, which reads `start` where it does not say. Every reading takes a number. -/
def ofGiven (start : Number) (v : Value) : Except Misuse Clock := do
  match ((← v.entry? "start").getD (.num start)).quantity?, ((← v.entry? "step").getD (.int 0)).quantity? with
  | some start, some step =>
    let _ ← (start.plus (step.scale 0)).mapError Misuse.number
    return steady start step
  | _, _ => throw (.wrongForm "a clock takes numbers")

end Clock

namespace Registry

/-- The name that is to be pinned; null lifts the pin. -/
def pinOf : Value → Option String
  | .null => none
  | v => some (nameOf v)

end Registry

namespace World

/-- The world of a registry and a clock, pinned as the registry says. -/
def ofGiven (registry : Value) (settings : GivenSettings) (clock : Clock) : Except OperationError World := do
  let origin ← (Origin.ofGiven registry settings.defaultPolicy).mapError OperationError.unusable
  match Registry.issues origin clock with
  | [] =>
    let w := opened origin clock
    match ← (registry.entry? "pin").mapError OperationError.unusable with
    | none => return w
    | some v => return w.withRegistry (← (w.registry.pin (Registry.pinOf v)).mapError OperationError.registry)
  | issues => throw (.undated issues)

end World

namespace SeedError

def misuse : SeedError → Misuse
  | .number e => .number e
  | .unreadable => .unreadable
  | .notANumber => .wrongForm "a seed is a number"

end SeedError

namespace Engine

/-- The engine of settings, a configuration and a seed; null stands for a fresh seed. -/
def ofGiven (settings : GivenSettings) (config seed : Value) (freshSeed : Int) : Except Misuse Engine := do
  let limits ← settings.limits.configured config
  let engine : Engine :=
    { paced := settings.paced, perturbation := settings.perturbation, limits := limits, seed := freshSeed }
  match seed with
  | .null => return engine
  | seed =>
    return { engine with seed := ← (Seed.ofValue seed).mapError SeedError.misuse, seedIssues := Seed.issues seed }

end Engine

inductive Command where
  | active
  | activeInFull
  | versions
  | clearSnapshot
  | operate (o : Operation)

namespace Command

/-- The version that edits go to. -/
def edited (r : Registry) : Except OperationError PolicyVersion := (r.find r.current).mapError OperationError.registry

/-- Updates are looked at once the rule is found and its members are told. -/
def update (r : Registry) (id : String) (updates : Value) : Except OperationError Command := do
  match updates with
  | .object updates => return .operate (.update id updates)
  | updates =>
    let _ ← (Edit.find id (← edited r)).mapError OperationError.registry
    throw (.unusable (.wrongForm ("'" ++ updates.formName ++ "' object is not a mapping")))

/-- An order may hold what is no id, as long as it could be looked up. -/
def reorder (r : Registry) (ids : Value) : Except OperationError Command := do
  let _ ← edited r
  return .operate (.reorder ((← ids.atoms.mapError OperationError.unusable).filterMap Value.text?))

def fetch (cached range seed : Value) : Except Misuse Command := do
  let bounds ← range.elements
  let seed ← (Seed.ofValue seed).mapError SeedError.misuse
  match bounds with
  | [low, high] =>
    match low.quantity?, high.quantity? with
    | some low, some high => return .operate (.fetch cached.isPresent low high seed)
    | _, _ => throw (.wrongForm "a range is of numbers")
  | _ => throw .unreadable

/-- A run of its own, under the limits of the settings. -/
def run (settings : GivenSettings) (freshSeed : Int) (given : Value) : Except Misuse Command := do
  let t ← (Transaction.read (← given.entry "context")).usable
  let u ← (User.read (← given.entry "user")).usable
  return .operate (.run (← Engine.ofGiven settings .null (← given.entry "seed") freshSeed) t u)

/-- The command that a name and arguments make; arguments beyond those it takes are passed over. -/
def ofStep (settings : GivenSettings) (freshSeed : Int) (r : Registry) (step : Value) :
    Except OperationError Command := do
  let argument (i : Nat) : Except OperationError Value := (step.place i).mapError .unusable
  match ← argument 0 with
  | .text "active" => return .active
  | .text "active_full" => return .activeInFull
  | .text "versions" => return .versions
  | .text "clear_snapshot" => return .clearSnapshot
  | .text "reset" => return .operate .reset
  | .text "pin" => return .operate (.pin (Registry.pinOf (← argument 1)))
  | .text "cache" => return .operate (.cache (Registry.nameOf (← argument 1)) (← argument 2))
  | .text "add_rule" => return .operate (.add (← ((Rule.read (← argument 1)).usable).mapError .unusable))
  | .text "update_rule" => update r (Registry.nameOf (← argument 1)) (← argument 2)
  | .text "remove_rule" => return .operate (.remove (Registry.nameOf (← argument 1)))
  | .text "reorder" => reorder r (← argument 1)
  | .text "fetch" => (fetch (← argument 1) (← argument 2) (← argument 3)).mapError .unusable
  | .text "run" => (run settings freshSeed (← argument 1)).mapError .unusable
  | _ => throw (.unusable .noEntry)

end Command

end WalletRouting
