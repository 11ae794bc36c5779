import WalletRouting.Draws
import WalletRouting.Policy.Field
import WalletRouting.Risk.Basic

/-! # Assessing risk

Points are charged for what is unusual about the purchase and about the instrument. They are scaled by the
user's tolerance and shaken by two draws, and a hundred of them make a risk of one. Every assessment
spends exactly two draws, whatever it finds.
-/
namespace WalletRouting
set_option autoImplicit false

/-- Points, and what they are charged for where the user is told. -/
structure Charge where
  points : Nat
  factor : Option String
  deriving Repr

namespace Charge

def of (points : Nat) (factor : String) : Charge := ⟨points, some factor⟩

def when (condition : Bool) (c : Charge) : List Charge := if condition then [c] else []

def total (charges : List Charge) : Nat := charges.foldr (fun c n => c.points + n) 0

end Charge

namespace RiskAssessment

/-- The charge for a purchase of this amount; the highest bound it exceeds decides. -/
def amountCharges (limits : RiskLimits) (amount : Double) : List Charge :=
  if limits.high.below (.float amount) then [.of 20 ("High amount ($" ++ amount.fixed 0 ++ ")")]
  else if limits.medium.below (.float amount) then [.of 10 ("Medium amount ($" ++ amount.fixed 0 ++ ")")]
  else if limits.low.below (.float amount) then [⟨3, none⟩]
  else []

def placeCharges (t : Transaction) : List Charge :=
  Charge.when (t.country ≠ "US") (.of 12 ("International (" ++ t.country ++ ")")) ++
    Charge.when (!t.inPerson) (.of 8 "Card not present")

def flagCharges : Keyed Charge :=
  [("high_amount", .of 10 "Amount anomaly"),
   ("new_merchant", .of 12 "New merchant"),
   ("velocity_spike", .of 18 "Velocity spike"),
   ("geo_anomaly", .of 15 "Geographic anomaly"),
   ("time_anomaly", .of 6 "Unusual time"),
   ("device_change", .of 12 "New device")]

/-- A flag is charged once, however often it is raised. -/
def raisedCharges (flags : List String) : List Charge :=
  (flagCharges.filter fun (flag, _) => flags.contains flag).map Prod.snd

def limitCharges (i : Instrument) (amount : Double) : List Charge :=
  match i.cardKind? with
  | some .credit =>
    let utilization := i.terms.projectedUtilization amount
    if 0.9 < utilization then [.of 15 "Near credit limit"]
    else if 0.7 < utilization then [.of 8 "High utilization"]
    else []
  | some .debit => Charge.when (i.terms.balance < amount * 1.5) (.of 12 "Low debit balance")
  | _ => []

def networkCharges (network : Network) (country : String) : List Charge :=
  match network with
  | .discover => [.of 4 "Lower network acceptance"]
  | .amex => Charge.when (country ≠ "US") (.of 6 "Amex international")
  | _ => []

def charges (limits : RiskLimits) (t : Transaction) (i : Instrument) : List Charge :=
  amountCharges limits t.amount ++ placeCharges t ++ raisedCharges t.riskFlags ++ limitCharges i t.amount ++
    networkCharges i.terms.network t.country

/-- How heavily points weigh on a user of this tolerance. -/
def weightOf : RiskTolerance → Double
  | .low => 1.15
  | .medium => 1.0
  | .high => 0.85

/-- The risk that points amount to after a draw `u` in `[0, 1)`. -/
def riskOf (tolerance : RiskTolerance) (points : Nat) (u : Double) : Double :=
  Double.clamp 0.0 1.0 ((Float.ofNat points * weightOf tolerance + (u - 0.5) * 10.0) / 100.0)

def declineOf (risk u : Double) : Double := Double.clamp 0.0 1.0 (risk + (u - 0.5) * 0.05)

/-- Percent of one; a whole number is taken exactly before it is rounded. -/
def percent : Number → Double
  | .int n => Float.ofInt (n * 100)
  | .float x => x * 100.0

def vetoText (risk : Double) (threshold : Number) : String :=
  "Risk " ++ (risk * 100.0).fixed 1 ++ "% exceeds threshold " ++ (percent threshold).fixed 0 ++ "%"

/-- The assessment that two draws make of the charges; both results are rounded to three places. -/
def ofDraws (limits : RiskLimits) (tolerance : RiskTolerance) (id : String) (charges : List Charge)
    (first second : Double) : RiskAssessment :=
  let risk := riskOf tolerance (Charge.total charges) first
  let veto := (Number.float risk).reaches limits.veto
  { credentialId := id
    risk := risk.roundPlaces 3
    decline := (declineOf risk second).roundPlaces 3
    factors := charges.filterMap (·.factor)
    veto := veto
    vetoReason := if veto then some (vetoText risk limits.veto) else none }

def assess (limits : RiskLimits) (t : Transaction) (u : User) (i : Instrument) (g : Generator) :
    RiskAssessment × Generator :=
  let (first, g) := g.unit
  let (second, g) := g.unit
  (ofDraws limits u.tolerance i.id (charges limits t i) first second, g)

def assessEach (limits : RiskLimits) (t : Transaction) (u : User) :
    List Instrument → Generator → List RiskAssessment × Generator
  | [], g => ([], g)
  | i :: rest, g =>
    let (a, g) := assess limits t u i g
    let (others, g) := assessEach limits t u rest g
    (a :: others, g)

/-- Assessments by id. An id that occurs twice keeps its first place and its last assessment. -/
def assessAll (limits : RiskLimits) (t : Transaction) (u : User) (instruments : List Instrument) (g : Generator) :
    Keyed RiskAssessment × Generator :=
  let (each, g) := assessEach limits t u instruments g
  (Keyed.ofPairs (each.map fun a => (a.credentialId, a)), g)

/-- The id of lowest risk among those given, first come first, that is assessed and not vetoed. -/
def lowest (assessments : Keyed RiskAssessment) (ids : List String) : Option String :=
  let better (best : Option (String × Double)) (id : String) : Option (String × Double) :=
    match assessments.get? id with
    | none => best
    | some a =>
      if a.veto then best
      else
        match best with
        | some (_, risk) => if a.risk < risk then some (id, a.risk) else best
        | none => some (id, a.risk)
  (ids.foldl better none).map Prod.fst

end RiskAssessment

end WalletRouting
