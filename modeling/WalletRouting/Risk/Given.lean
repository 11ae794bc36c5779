import WalletRouting.Risk.Assessment
import WalletRouting.Schema.Misuse
import WalletRouting.Text.Lower

/-! # Limits as they are given

Limits are taken as they come and looked at when something is compared with them: the limits of amounts before the draws
of an assessment, from the highest down to the first that is exceeded, and the threshold of a veto after them. Where all
are numbers, `GivenLimits.assessAll` assesses as `RiskAssessment.assessAll` does.
-/
namespace WalletRouting
set_option autoImplicit false

structure GivenLimits where
  veto : Value
  low : Value
  medium : Value
  high : Value
  deriving Repr

namespace GivenLimits

def ofLimits (limits : RiskLimits) : GivenLimits :=
  ⟨.num limits.veto, .num limits.low, .num limits.medium, .num limits.high⟩

/-- The limits as numbers; one that is none is never compared with. -/
def numbers (g : GivenLimits) : RiskLimits :=
  let number (v : Value) : Number := v.quantity?.getD (.int 0)
  ⟨number g.veto, number g.low, number g.medium, number g.high⟩

/-- Limits with those that a configuration gives in place of some of them. -/
def configured (config : Value) (g : GivenLimits) : Except Misuse GivenLimits :=
  let names (text : String) : Except Misuse Bool :=
    match config with
    | .text s => .ok (Text.occursIn (Text.points text) (Text.points s))
    | v => do return (← v.elements).any fun x => x.agrees (.text text)
  match config with
  | .null => .ok g
  | config => do
    let g ← if ← names "veto_threshold" then pure { g with veto := ← config.entry "veto_threshold" } else pure g
    if ← names "amount_thresholds" then
      match ← (← config.entry "amount_thresholds").elements with
      | [low, medium, high] => return { g with low := low, medium := medium, high := high }
      | _ => throw (.wrongForm "three amounts are expected")
    else return g

/-- The first limit, of those that an amount is compared with, that it cannot be compared with. -/
def amountFault? (amount : Double) : List Value → Option Misuse
  | [] => none
  | limit :: rest =>
    match limit.quantity? with
    | none => some (limit.incomparable ">")
    | some n => if n.below (.float amount) then none else amountFault? amount rest

/-- Whether a threshold can be told in percent. -/
def isTellable : Number → Bool
  | .int n => ((Number.int (n * 100)).toDouble?).isSome
  | .float _ => true

def afterDraws (count : Nat) (g : Generator) : Generator := ⟨g.seed, g.drawn + count⟩

def assessAll (limits : GivenLimits) (t : Transaction) (u : User) (instruments : List Instrument) (g : Generator) :
    Except Misuse (Keyed RiskAssessment) × Generator :=
  match instruments, amountFault? t.amount [limits.high, limits.medium, limits.low], limits.veto.quantity? with
  | [], _, _ => (.ok [], g)
  | _ :: _, some e, _ => (.error e, g)
  | _ :: _, none, none => (.error (limits.veto.incomparable ">="), afterDraws 2 g)
  | instruments, none, some veto =>
    let (each, after) := RiskAssessment.assessEach limits.numbers t u instruments g
    match isTellable veto, each.findIdx? (·.veto) with
    | false, some i => (.error (.number .tooLarge), afterDraws (2 * (i + 1)) g)
    | _, _ => (.ok (Keyed.ofPairs (each.map fun a => (a.credentialId, a))), after)

end GivenLimits

end WalletRouting
