import WalletRouting.Schema.Record
import WalletRouting.Schema.Scalar
import WalletRouting.Wallet.User

/-! # Scores

One row of the score table holds the four subscores of an instrument, what the rules added and took, and its
place. Subscores lie on a scale from 0 to 100; higher is better.
-/
namespace WalletRouting
set_option autoImplicit false

structure Subscore where
  raw : Double := 0
  normalized : Double := 0
  weight : Double := 0
  weighted : Double := 0
  factors : List String := []
  deriving Repr

structure Subscores where
  rewards : Subscore
  credit : Subscore
  cashflow : Subscore
  risk : Subscore
  deriving Repr

/-- Points that a rule added or took. -/
structure Adjustment where
  label : String
  amount : Double
  ruleId : Option String
  deriving Repr

structure ScoreRow where
  credentialId : String
  credentialName : String
  subscores : Subscores
  bonuses : List Adjustment
  penalties : List Adjustment
  totalBonuses : Double
  totalPenalties : Double
  base : Double
  final : Double
  ranking : Int
  excluded : Bool
  exclusionReason : Option String
  exclusionStage : Option String
  deriving Repr

/-- The four things a route is judged by. -/
inductive Criterion where
  | rewards
  | credit
  | cashflow
  | risk
  deriving DecidableEq, Repr

namespace Criterion

def all : List Criterion := [.rewards, .credit, .cashflow, .risk]

def name : Criterion → String
  | .rewards => "rewards"
  | .credit => "credit"
  | .cashflow => "cashflow"
  | .risk => "risk"

end Criterion

namespace Weights

def get (w : Weights) : Criterion → Double
  | .rewards => w.rewards
  | .credit => w.credit
  | .cashflow => w.cashflow
  | .risk => w.risk

def set (w : Weights) (x : Double) : Criterion → Weights
  | .rewards => { w with rewards := x }
  | .credit => { w with credit := x }
  | .cashflow => { w with cashflow := x }
  | .risk => { w with risk := x }

end Weights

namespace Subscores

def get (s : Subscores) : Criterion → Subscore
  | .rewards => s.rewards
  | .credit => s.credit
  | .cashflow => s.cashflow
  | .risk => s.risk

def sumOf (f : Criterion → Double) : Double := (Criterion.all.map f).foldl (· + ·) 0.0

end Subscores

open Schema

namespace Subscore

def read : Read Subscore := record fun m =>
  Subscore.mk <$> optional "raw" 0 double m
    <*> optional "normalized" 0 double m
    <*> optional "weight" 0 double m
    <*> optional "weighted" 0 double m
    <*> optional "factors" [] (listOf text) m

def toValue (s : Subscore) : Value := .object
  [("raw", .float s.raw), ("normalized", .float s.normalized), ("weight", .float s.weight),
   ("weighted", .float s.weighted), ("factors", .ofList .text s.factors)]

end Subscore

namespace Subscores

def read : Read Subscores := record fun m =>
  Subscores.mk <$> required "rewards" Subscore.read m
    <*> required "credit" Subscore.read m
    <*> required "cashflow" Subscore.read m
    <*> required "risk" Subscore.read m

def toValue (s : Subscores) : Value := .object
  [("rewards", s.rewards.toValue), ("credit", s.credit.toValue), ("cashflow", s.cashflow.toValue),
   ("risk", s.risk.toValue)]

end Subscores

namespace Adjustment

def read : Read Adjustment := record fun m =>
  Adjustment.mk <$> required "label" text m
    <*> required "amount" double m
    <*> optional "rule_id" none (nullable text) m

def toValue (a : Adjustment) : Value := .object
  [("label", .text a.label), ("amount", .float a.amount), ("rule_id", .ofOption .text a.ruleId)]

end Adjustment

namespace ScoreRow

def read : Read ScoreRow := record fun m =>
  ScoreRow.mk <$> required "credential_id" text m
    <*> required "credential_name" text m
    <*> required "subscores" Subscores.read m
    <*> optional "bonuses" [] (listOf Adjustment.read) m
    <*> optional "penalties" [] (listOf Adjustment.read) m
    <*> optional "total_bonuses" 0 double m
    <*> optional "total_penalties" 0 double m
    <*> optional "base_score" 0 double m
    <*> optional "final_score" 0 (doubleWithin 0 100) m
    <*> optional "ranking" 0 integer m
    <*> optional "excluded" false flag m
    <*> optional "exclusion_reason" none (nullable text) m
    <*> optional "exclusion_stage" none (nullable text) m

def toValue (r : ScoreRow) : Value := .object
  [("credential_id", .text r.credentialId),
   ("credential_name", .text r.credentialName),
   ("subscores", r.subscores.toValue),
   ("bonuses", .ofList Adjustment.toValue r.bonuses),
   ("penalties", .ofList Adjustment.toValue r.penalties),
   ("total_bonuses", .float r.totalBonuses),
   ("total_penalties", .float r.totalPenalties),
   ("base_score", .float r.base),
   ("final_score", .float r.final),
   ("ranking", .int r.ranking),
   ("excluded", .bool r.excluded),
   ("exclusion_reason", .ofOption .text r.exclusionReason),
   ("exclusion_stage", .ofOption .text r.exclusionStage)]

end ScoreRow

end WalletRouting
