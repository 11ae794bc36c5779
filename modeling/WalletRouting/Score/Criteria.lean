import WalletRouting.Policy.Field
import WalletRouting.Risk.Basic
import WalletRouting.Score.Basic

/-! # The four subscores

Each reads the instrument, the purchase and the user, places them on a tier, and says why. Values of any
size are accepted; only the normalised value is brought into `[0, 100]`.
-/
namespace WalletRouting
set_option autoImplicit false

namespace Subscore

def of (raw : Double) (factors : List String) : Subscore where
  raw := raw.roundPlaces 2
  normalized := (Double.clamp 0 100 raw).roundPlaces 2
  factors := factors

def percent (x : Double) : String := (x * 100.0).fixed 1 ++ "%"

/-- A tier: its score, and the sentence that explains it. -/
structure Tier where
  score : Double
  sentence : String
  deriving Repr

/-- Whether a purchase brings the signup bonus close enough to count, and what remains then. -/
def bonusReach? (bonus : Option SignupBonus) (amount : Double) : Option (SignupBonus × Double) :=
  match bonus with
  | some b =>
    let remaining := b.threshold - b.current
    if 0 < remaining ∧ remaining ≤ amount * 1.5 then some (b, remaining) else none
  | none => none

/-- Fifteen points per unit of category rate, twenty for a signup bonus within reach, five per unit of
cashback. -/
def rewards (i : Terms) (t : Transaction) : Subscore :=
  let category := if t.category = "" then "default" else t.category
  let rate := i.categoryRate t.category
  let reach := bonusReach? i.signupBonus t.amount
  let raw := rate * 15.0
  let raw := if reach.isSome then raw + 20.0 else raw
  let raw := if 0 < i.cashbackRate then raw + i.cashbackRate * 5.0 else raw
  of raw
    (["Category \"" ++ category ++ "\" rate: " ++ rate.generalText ++ "x"] ++
      (match reach with
      | some (b, remaining) =>
        ["Signup bonus: $" ++ remaining.generalText ++ " remaining to earn " ++ b.reward.generalText ++ " pts"]
      | none => []) ++
      (if 0 < i.cashbackRate then ["Base cashback: " ++ i.cashbackRate.generalText ++ "%"] else []))

/-- The tier of a projected utilization; one that is no number counts as the last. -/
def creditTier (utilization : Double) : Tier :=
  if utilization ≤ 0.10 then ⟨100.0, "Excellent: under 10% utilization"⟩
  else if utilization ≤ 0.30 then ⟨90.0 - (utilization - 0.10) * 100.0, "Good: under 30% utilization"⟩
  else if utilization ≤ 0.50 then ⟨70.0 - (utilization - 0.30) * 100.0, "Fair: under 50% utilization"⟩
  else if utilization ≤ 0.70 then ⟨50.0 - (utilization - 0.50) * 150.0, "Warning: approaching high utilization"⟩
  else if utilization ≤ 0.90 then ⟨20.0 - (utilization - 0.70) * 50.0, "Critical: high utilization impact"⟩
  else ⟨5.0, "Near limit: severe credit impact"⟩

def credit (i : Instrument) (t : Transaction) : Subscore :=
  if i.cardKind? = some .credit then
    let projected := i.terms.projectedUtilization t.amount
    let tier := creditTier projected
    of tier.score
      ["Current utilization: " ++ percent i.terms.utilization, "Projected utilization: " ++ percent projected,
        tier.sentence]
  else of 50.0 ["Non-credit card: neutral score"]

/-- The tier of what is left on a debit card, in purchases of this size. -/
def bufferTier (remaining amount : Double) : Tier :=
  if remaining < 0 then ⟨0.0, "Insufficient funds"⟩
  else
    let ratio := if 0 < amount then remaining / amount else 1.0 / 0.0
    if 5 ≤ ratio then ⟨95.0, "Excellent buffer (5x+)"⟩
    else if 3 ≤ ratio then ⟨80.0, "Good buffer (3-5x)"⟩
    else if 2 ≤ ratio then ⟨65.0, "Adequate buffer (2-3x)"⟩
    else if 1 ≤ ratio then ⟨45.0, "Tight buffer (1-2x)"⟩
    else ⟨25.0, "Low buffer (<1x)"⟩

def paycheckTier (days : Int) : Tier :=
  if days ≤ 3 then ⟨95.0, "Paycheck imminent: credit ideal"⟩
  else if days ≤ 7 then ⟨85.0, "Paycheck soon: credit preferred"⟩
  else if days ≤ 14 then ⟨70.0, "Mid-cycle: credit acceptable"⟩
  else ⟨55.0, "Early cycle: consider APR cost"⟩

def neutralCashflow : String → Subscore := fun kind => of 50.0 [kind ++ ": neutral cashflow"]

def cashflow (i : Instrument) (t : Transaction) (u : User) : Subscore :=
  match i.cardKind? with
  | some .debit =>
    let remaining := i.terms.balance - t.amount
    let tier := bufferTier remaining t.amount
    of tier.score ["Balance: $" ++ i.terms.balance.fixed 2, "After txn: $" ++ remaining.fixed 2, tier.sentence]
  | some .credit =>
    let tier := paycheckTier u.daysToPaycheck
    let factors :=
      ["Days to paycheck: " ++ toString u.daysToPaycheck, "APR: " ++ i.terms.apr.generalText ++ "%", tier.sentence]
    if 25 < i.terms.apr then of (tier.score - 10.0) (factors ++ ["High APR penalty"]) else of tier.score factors
  | some .prepaid => neutralCashflow "Prepaid"
  | none => neutralCashflow "Routing"

/-- The inverse of the assessed risk, with the first three of its factors. -/
def risk : Option RiskAssessment → Subscore
  | none => of 50.0 ["No risk assessment available"]
  | some a =>
    of ((1.0 - a.risk) * 100.0)
      (["Risk score: " ++ percent a.risk, "Decline probability: " ++ percent a.decline] ++
        (a.factors.take 3).map ("⚠ " ++ ·) ++ (if a.veto then ["⛔ VETO RECOMMENDED"] else []))

end Subscore

end WalletRouting
