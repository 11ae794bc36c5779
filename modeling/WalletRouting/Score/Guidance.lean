import WalletRouting.Risk.Basic
import WalletRouting.Ruling.Basic
import WalletRouting.Schema.Misuse
import WalletRouting.Score.Basic

/-! # What a score table is told by the rules

A table asks little of a ruling: whether there is an override, why an instrument is excluded, and which points it is
given and loses. A ruling that was evaluated answers all of that; one that is given in any form may not.
-/
namespace WalletRouting
set_option autoImplicit false

structure Guidance where
  hardOverride : Bool
  /-- Why an instrument is excluded; empty where it is not. -/
  reason : String → String
  bonuses : String → List Adjustment
  penalties : String → List Adjustment
  /-- What is said of an instrument that cannot be used, given its assessments and the id that is forced. -/
  fault? : Keyed RiskAssessment → Option String → Instrument → Option Misuse := fun _ _ _ => none

namespace Guidance

def boostLabel : String := "Rule boost"

def penaltyLabel : String := "Rule penalty"

end Guidance

namespace Ruling

/-- The points that rules gave to an instrument; zero points are not worth a line. -/
def adjustments (label : String) (amounts : Keyed Number) (rules : Keyed String) (id : String) : List Adjustment :=
  match amounts.get? id with
  | some n => if n.isZero then [] else [⟨label, n.toDouble, rules.get? id⟩]
  | none => []

def guidance (s : Ruling) : Guidance where
  hardOverride := s.hardOverride
  reason id := (s.excluded.get? id).getD ""
  bonuses := adjustments Guidance.boostLabel s.boosts s.boostRules
  penalties := adjustments Guidance.penaltyLabel s.penalties s.penaltyRules

end Ruling

end WalletRouting
