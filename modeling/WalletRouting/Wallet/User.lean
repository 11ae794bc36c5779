import WalletRouting.Wallet.Credential

/-! # The wallet's owner -/
namespace WalletRouting
set_option autoImplicit false

/-- How much each of the four criteria counts. -/
structure Weights where
  rewards : Double
  credit : Double
  cashflow : Double
  risk : Double
  deriving Repr

inductive RiskTolerance where
  | low
  | medium
  | high
  deriving DecidableEq, Repr

namespace RiskTolerance

def name : RiskTolerance → String
  | .low => "low"
  | .medium => "medium"
  | .high => "high"

def named : Keyed RiskTolerance := [.low, .medium, .high].map fun t => (t.name, t)

end RiskTolerance

structure User where
  id : String
  name : String
  credentials : List Credential
  routingCredentials : List RoutingCredential
  cashBalance : Double
  daysToPaycheck : Int
  weights : Weights
  tolerance : RiskTolerance
  defaultCredential : Option String
  deriving Repr

open Schema

namespace Weights

def balanced : Weights := ⟨0.25, 0.25, 0.25, 0.25⟩

def total (w : Weights) : Double := w.rewards + w.credit + w.cashflow + w.risk

def read : Read Weights := record fun m =>
  Weights.mk <$> optional "rewards" 0.25 (doubleFrom 0) m
    <*> optional "credit" 0.25 (doubleFrom 0) m
    <*> optional "cashflow" 0.25 (doubleFrom 0) m
    <*> optional "risk" 0.25 (doubleFrom 0) m

def toValue (w : Weights) : Value := .object
  [("rewards", .float w.rewards), ("credit", .float w.credit), ("cashflow", .float w.cashflow),
   ("risk", .float w.risk)]

end Weights

namespace User

/-- Everything the wallet can pay with, plain credentials first. -/
def instruments (u : User) : List Instrument :=
  u.credentials.map .card ++ u.routingCredentials.map .router

def read : Read User := record fun m =>
  User.mk <$> required "id" text m
    <*> optional "name" "" text m
    <*> optional "credentials" [] (listOf Credential.read) m
    <*> optional "routing_credentials" [] (listOf RoutingCredential.read) m
    <*> optional "cash_balance" 0 double m
    <*> optional "days_to_paycheck" 14 (integerFrom 0) m
    <*> optional "preference_weights" Weights.balanced Weights.read m
    <*> optional "risk_tolerance" .medium (member RiskTolerance.named .unknownMember) m
    <*> optional "default_credential" none (nullable text) m

def writeError? (u : User) : Option WriteError :=
  (u.credentials.findSome? fun c => c.toTerms.writeError?).or
    (u.routingCredentials.findSome? RoutingCredential.writeError?)

def toValue (u : User) : Value := .object
  [("id", .text u.id),
   ("name", .text u.name),
   ("credentials", .ofList Credential.toValue u.credentials),
   ("routing_credentials", .ofList RoutingCredential.toValue u.routingCredentials),
   ("cash_balance", .float u.cashBalance),
   ("days_to_paycheck", .int u.daysToPaycheck),
   ("preference_weights", u.weights.toValue),
   ("risk_tolerance", .text u.tolerance.name),
   ("default_credential", .ofOption .text u.defaultCredential)]

end User

end WalletRouting
