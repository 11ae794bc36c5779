import WalletRouting.Schema.Record
import WalletRouting.Schema.Scalar
import WalletRouting.Settings

/-! # What an assessment says

Risk and the probability of a decline lie in `[0, 1]`; a veto carries its reason.
-/
namespace WalletRouting
set_option autoImplicit false

structure RiskAssessment where
  credentialId : String
  risk : Double
  decline : Double
  factors : List String
  veto : Bool
  vetoReason : Option String
  deriving Repr

/-- From which risk on an instrument is vetoed, and above which amounts a purchase costs points. -/
structure RiskLimits where
  veto : Number
  low : Number
  medium : Number
  high : Number
  deriving Repr

def Settings.riskLimits (s : Settings) : RiskLimits where
  veto := .float s.vetoThreshold
  low := .float s.lowAmount
  medium := .float s.mediumAmount
  high := .float s.highAmount

namespace RiskAssessment

open Schema

def read : Read RiskAssessment := record fun m =>
  RiskAssessment.mk <$> required "credential_id" text m
    <*> required "risk_score" (doubleWithin 0 1) m
    <*> required "decline_probability" (doubleWithin 0 1) m
    <*> optional "risk_factors" [] (listOf text) m
    <*> optional "veto_recommendation" false flag m
    <*> optional "veto_reason" none (nullable text) m

def toValue (a : RiskAssessment) : Value := .object
  [("credential_id", .text a.credentialId),
   ("risk_score", .float a.risk),
   ("decline_probability", .float a.decline),
   ("risk_factors", .ofList .text a.factors),
   ("veto_recommendation", .bool a.veto),
   ("veto_reason", .ofOption .text a.vetoReason)]

end RiskAssessment

end WalletRouting
