import WalletRouting.Draws
import WalletRouting.Resolution.Choice
import WalletRouting.Run.Stage

/-! # A run in flight

A `Job` is what a run is given and never changes; a `Run` is what its stages have found so far.
-/
namespace WalletRouting
set_option autoImplicit false

/-- One purchase to route, with the policy as it stood when the run began. -/
structure Job where
  seed : Int
  limits : GivenLimits
  transaction : Transaction
  user : User
  policy : PolicyVersion
  pinned : Bool
  start : Number
  correlationId : String

structure Run where
  generator : Generator
  offset : Int
  logs : List LogEntry
  results : List StageResult
  spans : List Span
  errors : List StageFault
  context : Transaction
  ruling : Ruling
  assessments : Keyed RiskAssessment
  table : Option ScoreTable
  selectedId : Option String
  selected : Option Instrument
  shadow : Option Shadow
  resolved : Option Resolved
  final : Option Instrument
  authorization : Option Authorization

namespace Job

def instruments (j : Job) : List Instrument := j.user.instruments

def time (j : Job) (offset : Int) : Int := (j.start.add (.int offset)).whole

def window (j : Job) (offset duration : Int) : Window where
  startTime := j.time offset
  endTime := j.time (offset + duration)
  startOffset := offset
  endOffset := offset + duration
  duration := duration

end Job

namespace Run

def initial (t : Transaction) (g : Generator) : Run where
  generator := g
  offset := 0
  logs := []
  results := []
  spans := []
  errors := []
  context := t
  ruling := {}
  assessments := []
  table := none
  selectedId := none
  selected := none
  shadow := none
  resolved := none
  final := none
  authorization := none

/-- Every assessment made so far. Those made for a child count before those of the wallet. -/
def known (r : Run) : Keyed RiskAssessment :=
  match r.resolved with
  | some resolved => r.assessments.update resolved.assessments
  | none => r.assessments

def isRouter (r : Run) : Bool :=
  match r.selected with
  | some i => i.isRouter
  | none => false

/-- An entry at one to three milliseconds into the stage, but not past its end. -/
def log (j : Job) (w : Window) (s : Stage) (level : LogLevel) (message : String) (credentialId : Option String)
    (r : Run) : Run :=
  let (step, g) := r.generator.position 3
  let offset := min (w.startOffset + (Int.ofNat step + 1)) w.endOffset
  { r with
    generator := g
    logs := r.logs ++
      [{ timestamp := j.time offset
         offset := offset
         correlationId := j.correlationId
         stage := s.name
         level := level
         message := message
         credentialId := credentialId }] }

def info (j : Job) (w : Window) (s : Stage) (message : String) (r : Run) : Run := r.log j w s .info message none

end Run

end WalletRouting
