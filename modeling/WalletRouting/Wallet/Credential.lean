import WalletRouting.Schema.Record
import WalletRouting.Schema.Scalar

/-! # Payment credentials

A wallet holds plain credentials and routing credentials. A routing credential pays with one of its
children, chosen for each transaction. Both share `Terms`; an `Instrument` is either of them.
-/
namespace WalletRouting
set_option autoImplicit false

inductive Network where
  | visa
  | mastercard
  | amex
  | discover
  deriving DecidableEq, Repr

namespace Network

def name : Network → String
  | .visa => "visa"
  | .mastercard => "mastercard"
  | .amex => "amex"
  | .discover => "discover"

def named : Keyed Network := [.visa, .mastercard, .amex, .discover].map fun n => (n.name, n)

end Network

structure SignupBonus where
  threshold : Double
  current : Double
  reward : Double
  deriving Repr

/-- What every credential carries. -/
structure Terms where
  id : String
  name : String
  dpan : String
  network : Network
  limit : Double
  balance : Double
  utilization : Double
  apr : Double
  foreignFee : Double
  blockedMccs : List Int
  rewards : Keyed Double
  eligible : Bool
  cashbackRate : Double
  signupBonus : Option SignupBonus
  metadata : Keyed Value
  deriving Repr

inductive CardKind where
  | credit
  | debit
  | prepaid
  deriving DecidableEq, Repr

namespace CardKind

def name : CardKind → String
  | .credit => "credit"
  | .debit => "debit"
  | .prepaid => "prepaid"

def named : Keyed CardKind := [.credit, .debit, .prepaid].map fun k => (k.name, k)

end CardKind

structure Credential extends Terms where
  kind : CardKind
  deriving Repr

inductive Strategy where
  | optimalScore
  | roundRobin
  | lowestUtilization
  deriving DecidableEq, Repr

namespace Strategy

def name : Strategy → String
  | .optimalScore => "optimal_score"
  | .roundRobin => "round_robin"
  | .lowestUtilization => "lowest_utilization"

def named : Keyed Strategy := [.optimalScore, .roundRobin, .lowestUtilization].map fun s => (s.name, s)

end Strategy

structure RoutingCredential extends Terms where
  children : List Credential
  strategy : Strategy
  deriving Repr

inductive Instrument where
  | card (c : Credential)
  | router (r : RoutingCredential)
  deriving Repr

namespace Instrument

def terms : Instrument → Terms
  | .card c => c.toTerms
  | .router r => r.toTerms

def id (i : Instrument) : String := i.terms.id

def name (i : Instrument) : String := i.terms.name

def eligible (i : Instrument) : Bool := i.terms.eligible

/-- The plain kind of the instrument; a routing credential has none. -/
def cardKind? : Instrument → Option CardKind
  | .card c => some c.kind
  | .router _ => none

def typeName : Instrument → String
  | .card c => c.kind.name
  | .router _ => "routing"

def isRouter : Instrument → Bool
  | .card _ => false
  | .router _ => true

end Instrument

open Schema

namespace SignupBonus

def read : Read SignupBonus := record fun m =>
  SignupBonus.mk <$> required "threshold" double m
    <*> required "current" double m
    <*> required "reward" double m

def toValue (b : SignupBonus) : Value := .object
  [("threshold", .float b.threshold), ("current", .float b.current), ("reward", .float b.reward)]

end SignupBonus

namespace Terms

def readFrom (m : Keyed Value) : Checked Terms :=
  Terms.mk <$> required "id" text m
    <*> required "name" text m
    <*> required "dpan" text m
    <*> required "network" (member Network.named .unknownMember) m
    <*> optional "limit" 0 double m
    <*> optional "balance" 0 double m
    <*> optional "utilization" 0 double m
    <*> optional "apr" 0 double m
    <*> optional "ftf" 0 double m
    <*> optional "blocked_mccs" [] (listOf integer) m
    <*> optional "rewards_by_category" [] (mapOf double) m
    <*> optional "is_eligible" true flag m
    <*> optional "cashback_rate" 0 double m
    <*> optional "signup_bonus" none (nullable SignupBonus.read) m
    <*> optional "metadata" [] (mapOf anything) m

def members (t : Terms) : Keyed Value :=
  [("id", .text t.id),
   ("name", .text t.name),
   ("dpan", .text t.dpan),
   ("network", .text t.network.name),
   ("limit", .float t.limit),
   ("balance", .float t.balance),
   ("utilization", .float t.utilization),
   ("apr", .float t.apr),
   ("ftf", .float t.foreignFee),
   ("blocked_mccs", .ofList .int t.blockedMccs),
   ("rewards_by_category", .ofNames .float t.rewards),
   ("is_eligible", .bool t.eligible),
   ("cashback_rate", .float t.cashbackRate),
   ("signup_bonus", .ofOption SignupBonus.toValue t.signupBonus),
   ("metadata", .ofNames Value.finitePart t.metadata)]

/-- Why the metadata cannot be written, if it cannot. -/
def writeError? (t : Terms) : Option WriteError := Value.namedWriteError? t.metadata

end Terms

namespace Credential

def read : Read Credential := record fun m =>
  Credential.mk <$> Terms.readFrom m <*> required "type" (member CardKind.named .unknownLiteral) m

def toValue (c : Credential) : Value := .object (c.toTerms.members ++ [("type", .text c.kind.name)])

end Credential

namespace RoutingCredential

def read : Read RoutingCredential := record fun m =>
  (fun terms (_ : Unit) children strategy => RoutingCredential.mk terms children strategy) <$> Terms.readFrom m
    <*> optional "type" () (member [("routing", ())] .unknownLiteral) m
    <*> optional "children" [] (listOf Credential.read) m
    <*> optional "routing_strategy" .optimalScore (member Strategy.named .unknownMember) m

def writeError? (r : RoutingCredential) : Option WriteError :=
  r.toTerms.writeError?.or (r.children.findSome? fun c => c.toTerms.writeError?)

def toValue (r : RoutingCredential) : Value := .object
  (r.toTerms.members ++
    [("type", .text "routing"),
     ("children", .ofList Credential.toValue r.children),
     ("routing_strategy", .text r.strategy.name)])

end RoutingCredential

end WalletRouting
