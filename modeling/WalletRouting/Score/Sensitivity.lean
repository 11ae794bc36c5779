import WalletRouting.Schema.Misuse
import WalletRouting.Score.Table

/-! # Sensitivity

Each weight in turn is moved up and down, the weights are made to sum to one again, and the table is scored
anew: does another row win?
-/
namespace WalletRouting
set_option autoImplicit false

inductive Direction where
  | increase
  | decrease
  deriving DecidableEq, Repr

namespace Direction

def name : Direction → String
  | .increase => "increase"
  | .decrease => "decrease"

def named : Keyed Direction := [.increase, .decrease].map fun d => (d.name, d)

end Direction

/-- What one moved weight does to the winner. -/
structure Nudge where
  criterion : String
  direction : Direction
  perturbation : Double
  winnerBefore : String
  newWinner : String
  changed : Bool
  newScore : Double
  deriving Repr

namespace Nudge

open Schema

def read : Read Nudge := record fun m =>
  Nudge.mk <$> required "criterion" text m
    <*> required "direction" (member Direction.named .unknownLiteral) m
    <*> required "perturbation" double m
    <*> required "original_winner" text m
    <*> required "new_winner" text m
    <*> required "winner_changed" flag m
    <*> required "new_score" double m

def toValue (n : Nudge) : Value := .object
  [("criterion", .text n.criterion),
   ("direction", .text n.direction.name),
   ("perturbation", .float n.perturbation),
   ("original_winner", .text n.winnerBefore),
   ("new_winner", .text n.newWinner),
   ("winner_changed", .bool n.changed),
   ("new_score", .float n.newScore)]

end Nudge

/-- Why weights cannot be moved: those of some move are refused, or they cannot be moved that far. -/
inductive SensitivityError where
  | unusableWeights (issues : List Schema.Issue)
  | perturbation (m : Misuse)
  deriving Repr

namespace ScoreRow

def rescore (weights : Weights) (r : ScoreRow) : Double :=
  let base := Subscores.sumOf fun c => (r.subscores.get c).normalized * weights.get c
  Double.clamp 0 100 (base + r.totalBonuses - r.totalPenalties)

/-- The first row of highest score under the weights, and that score. -/
def leader (weights : Weights) (first : ScoreRow) (rest : List ScoreRow) : ScoreRow × Double :=
  rest.foldl (fun best r => if best.2 < r.rescore weights then (r, r.rescore weights) else best)
    (first, first.rescore weights)

end ScoreRow

namespace Sensitivity

/-- Every weight with every direction, in the order in which they are reported. -/
def moves : List (Criterion × Direction) := Criterion.all.flatMap fun c => [(c, .increase), (c, .decrease)]

/-- The weights after one of them is moved, within `[0, 1]`, and all are made to sum to one. -/
def moved (weights : Weights) (perturbation : Double) (c : Criterion) (d : Direction) : Schema.Checked Weights :=
  let delta := if d = .increase then perturbation else -perturbation
  let w := weights.set (Double.clamp 0 1 (weights.get c + delta)) c
  let total := Subscores.sumOf w.get
  Weights.validate <|
    if 0 < total then ⟨w.rewards / total, w.credit / total, w.cashflow / total, w.risk / total⟩ else w

def nudge (weights : Weights) (perturbation : Double) (first : ScoreRow) (rest : List ScoreRow)
    (move : Criterion × Direction) : Schema.Checked Nudge :=
  let before := (first.leader weights rest).1
  (moved weights perturbation move.1 move.2).map fun w =>
    let (winner, score) := first.leader w rest
    { criterion := move.1.name
      direction := move.2
      perturbation := perturbation
      winnerBefore := before.credentialId
      newWinner := winner.credentialId
      changed := winner.credentialId ≠ before.credentialId
      newScore := score.roundPlaces 2 }

/-- One result per move, or none at all when there is no choice between rows. -/
def ofRows (rows : List ScoreRow) (weights : Weights) (perturbation : Number) :
    Except SensitivityError (List Nudge) :=
  match rows.filter fun r => !r.excluded with
  | first :: second :: rest =>
    match perturbation.double with
    | .error e => .error (.perturbation (.number e))
    | .ok x =>
      match Schema.Checked.each (nudge weights x first (second :: rest)) moves with
      | .bad issues => .error (.unusableWeights issues)
      | .ok nudges => .ok nudges
  | _ => .ok []

/-- How far weights are moved may be given in any form; it is looked at only where there is a choice between rows. -/
def ofGiven (rows : List ScoreRow) (weights : Weights) (perturbation : Value) :
    Except SensitivityError (List Nudge) :=
  match perturbation.quantity?, rows.filter fun r => !r.excluded with
  | some n, _ => ofRows rows weights n
  | none, _ :: _ :: _ =>
    .error (.perturbation (.wrongForm ("unsupported operand: '" ++ perturbation.formName ++ "'")))
  | none, _ => .ok []

end Sensitivity

end WalletRouting
