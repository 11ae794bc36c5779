import WalletRouting.Registry.Edit
import WalletRouting.Run.Engine

/-! # Operations on a world

Everything that may happen to a registry, one operation at a time. An operation that fails leaves the registry
as it was, unless it failed over a version that holds what cannot be written: that version is stored. Operations may
also happen in the middle of a run.
-/
namespace WalletRouting
set_option autoImplicit false

inductive Operation where
  | add (r : Rule)
  | update (id : String) (updates : Keyed Value)
  | remove (id : String)
  | reorder (ids : List String)
  | pin (version : Option String)
  | cache (version : String) (mark : Value)
  | fetch (cached : Bool) (low high : Number) (seed : Int)
  | reset
  | run (e : Engine) (t : Transaction) (u : User)

inductive OperationError where
  | registry (e : RegistryError)
  | run (e : RunError)
  | latency (e : NumberError)
  | undated (issues : List Schema.Issue)
  | unusable (m : Misuse)

inductive Answer where
  | nothing
  | policy (p : PolicyVersion)
  | latency (ms : Int)
  | routed (r : RunResult)

namespace World

def withRegistry (w : World) (r : Registry) : World := { w with registry := r }

/-- Stores the registry that an edit made, and answers with the edited version if it can be written. -/
def edited (w : World) : Except RegistryError (PolicyVersion × Registry) → Except OperationError Answer × World
  | .ok (p, r) =>
    match p.writeError? with
    | some e => (.error (.registry (.unwritable e)), w.withRegistry r)
    | none => (.ok (.policy p), w.withRegistry r)
  | .error e => (.error (.registry e), w)

def changed (w : World) : Except RegistryError Registry → Except OperationError Answer × World
  | .ok r => (.ok .nothing, w.withRegistry r)
  | .error e => (.error (.registry e), w)

end World

namespace Operation

def apply (o : Operation) (w : World) : Except OperationError Answer × World :=
  match o with
  | .add r => w.edited (w.registry.addRule r)
  | .update id updates => w.edited (w.registry.updateRule id updates)
  | .remove id => w.edited (w.registry.removeRule id)
  | .reorder ids => w.edited (w.registry.reorderRules ids)
  | .pin version => w.changed (w.registry.pin version)
  | .cache version mark => w.changed (w.registry.markCached version mark)
  | .fetch cached low high seed =>
    match w.fetch cached low high (Generator.ofSeed seed) with
    | (.ok ms, _, w) => (.ok (.latency ms), w)
    | (.error e, _, w) => (.error (.latency e), w)
  | .reset =>
    let (done, w) := w.tryReset
    ((done.mapError .undated).map fun _ => .nothing, w)
  | .run e t u =>
    match e.route t u w with
    | (.ok r, w) => (.ok (.routed r), w)
    | (.error error, w) => (.error (.run error), w)

def applyAll (os : List Operation) (w : World) : World := os.foldl (fun w o => (o.apply w).2) w

/-- What operations answer that are carried out one after another. -/
def answers : List Operation → World → List (Except OperationError Answer)
  | [], _ => []
  | o :: rest, w => (o.apply w).1 :: answers rest (o.apply w).2

end Operation

/-- What is done between two stages of a run: an operation, or an attempt to start the same engine again. -/
inductive Interruption where
  | operate (o : Operation)
  | restart (t : Transaction) (u : User)

def Interruption.operation (e : Engine) : Interruption → Operation
  | .operate o => o
  | .restart t u => .run e t u

/-- Does after each stage what a script has for its index. What that answers is kept, and no failure ends the run. -/
def Observer.acting (script : Int → List Interruption) : Observer (List (Except OperationError Answer)) where
  after e result kept w :=
    let os := (script result.index).map (Interruption.operation e)
    (none, kept ++ Operation.answers os w, Operation.applyAll os w)

end WalletRouting
