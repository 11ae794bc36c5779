import WalletRouting.Schema.Record
import WalletRouting.Schema.Scalar

/-! # Traces

A run leaves one result and one span per stage. Times are in milliseconds; an offset counts from the start of
the run.
-/
namespace WalletRouting
set_option autoImplicit false

inductive StageStatus where
  | pending
  | active
  | completed
  | error
  | warning
  | skipped
  deriving DecidableEq, Repr

namespace StageStatus

def name : StageStatus → String
  | .pending => "pending"
  | .active => "active"
  | .completed => "completed"
  | .error => "error"
  | .warning => "warning"
  | .skipped => "skipped"

def named : Keyed StageStatus :=
  [.pending, .active, .completed, .error, .warning, .skipped].map fun s => (s.name, s)

end StageStatus

structure StageFault where
  code : String
  message : String
  stage : Option String
  ruleId : Option String
  credentialId : Option String
  deriving Repr

inductive LogLevel where
  | debug
  | info
  | warn
  | error
  deriving DecidableEq, Repr

namespace LogLevel

def name : LogLevel → String
  | .debug => "debug"
  | .info => "info"
  | .warn => "warn"
  | .error => "error"

def named : Keyed LogLevel := [.debug, .info, .warn, .error].map fun l => (l.name, l)

end LogLevel

structure LogEntry where
  timestamp : Int
  offset : Int
  correlationId : String
  stage : String
  level : LogLevel
  message : String
  credentialId : Option String
  deriving Repr

/-- The stretch of a run that a stage takes. -/
structure Window where
  startTime : Int
  endTime : Int
  startOffset : Int
  endOffset : Int
  duration : Int
  deriving DecidableEq, Repr

structure StageResult where
  stage : String
  index : Int
  status : StageStatus
  window : Window
  inputs : Keyed Value
  outputs : Keyed Value
  logs : List LogEntry
  errors : List StageFault
  deriving Repr

structure Span where
  id : String
  parentId : Option String
  operation : String
  window : Window
  status : StageStatus
  tags : Keyed String
  logs : List LogEntry
  deriving Repr

structure Trace where
  id : String
  correlationId : String
  seed : Int
  startTime : Int
  endTime : Int
  totalDuration : Int
  spans : List Span
  results : List StageResult
  deriving Repr

structure StageTiming where
  stage : String
  startOffset : Int
  endOffset : Int
  duration : Int
  deriving DecidableEq, Repr

open Schema

namespace StageFault

def read : Read StageFault := record fun m =>
  StageFault.mk <$> required "code" text m
    <*> required "message" text m
    <*> optional "stage" none (nullable text) m
    <*> optional "rule_id" none (nullable text) m
    <*> optional "credential_id" none (nullable text) m

def toValue (f : StageFault) : Value := .object
  [("code", .text f.code),
   ("message", .text f.message),
   ("stage", .ofOption .text f.stage),
   ("rule_id", .ofOption .text f.ruleId),
   ("credential_id", .ofOption .text f.credentialId)]

end StageFault

namespace LogEntry

def read : Read LogEntry := record fun m =>
  LogEntry.mk <$> required "timestamp" integer m
    <*> required "offset_ms" integer m
    <*> required "correlation_id" text m
    <*> required "stage" text m
    <*> required "level" (member LogLevel.named .unknownLiteral) m
    <*> required "message" text m
    <*> optional "credential_id" none (nullable text) m

def toValue (e : LogEntry) : Value := .object
  [("timestamp", .int e.timestamp),
   ("offset_ms", .int e.offset),
   ("correlation_id", .text e.correlationId),
   ("stage", .text e.stage),
   ("level", .text e.level.name),
   ("message", .text e.message),
   ("credential_id", .ofOption .text e.credentialId)]

end LogEntry

namespace Window

def readFrom (m : Keyed Value) : Checked Window :=
  Window.mk <$> required "start_time" integer m
    <*> required "end_time" integer m
    <*> required "start_offset" integer m
    <*> required "end_offset" integer m
    <*> required "duration_ms" integer m

def members (w : Window) : Keyed Value :=
  [("start_time", .int w.startTime),
   ("end_time", .int w.endTime),
   ("start_offset", .int w.startOffset),
   ("end_offset", .int w.endOffset),
   ("duration_ms", .int w.duration)]

end Window

namespace StageResult

def read : Read StageResult := record fun m =>
  StageResult.mk <$> required "stage_name" text m
    <*> required "stage_index" integer m
    <*> required "status" (member StageStatus.named .unknownMember) m
    <*> Window.readFrom m
    <*> optional "inputs" [] (mapOf anything) m
    <*> optional "outputs" [] (mapOf anything) m
    <*> optional "logs" [] (listOf LogEntry.read) m
    <*> optional "errors" [] (listOf StageFault.read) m

/-- Why what went into the stage or came out of it cannot be written, if it cannot. -/
def writeError? (r : StageResult) : Option WriteError :=
  (Value.namedWriteError? r.inputs).or (Value.namedWriteError? r.outputs)

def toValue (r : StageResult) : Value := .object
  ([("stage_name", .text r.stage), ("stage_index", .int r.index), ("status", .text r.status.name)] ++
    r.window.members ++
    [("inputs", .ofNames Value.finitePart r.inputs),
     ("outputs", .ofNames Value.finitePart r.outputs),
     ("logs", .ofList LogEntry.toValue r.logs),
     ("errors", .ofList StageFault.toValue r.errors)])

end StageResult

namespace Span

def read : Read Span := record fun m =>
  Span.mk <$> required "span_id" text m
    <*> optional "parent_span_id" none (nullable text) m
    <*> required "operation_name" text m
    <*> Window.readFrom m
    <*> required "status" (member StageStatus.named .unknownMember) m
    <*> optional "tags" [] (mapOf text) m
    <*> optional "logs" [] (listOf LogEntry.read) m

def toValue (s : Span) : Value := .object
  ([("span_id", .text s.id), ("parent_span_id", .ofOption .text s.parentId), ("operation_name", .text s.operation)] ++
    s.window.members ++
    [("status", .text s.status.name),
     ("tags", .ofNames .text s.tags),
     ("logs", .ofList LogEntry.toValue s.logs)])

end Span

namespace Trace

def read : Read Trace := record fun m =>
  Trace.mk <$> required "trace_id" text m
    <*> required "correlation_id" text m
    <*> required "seed" integer m
    <*> required "start_time" integer m
    <*> required "end_time" integer m
    <*> required "total_duration_ms" integer m
    <*> required "spans" (listOf Span.read) m
    <*> required "stage_results" (listOf StageResult.read) m

def writeError? (t : Trace) : Option WriteError := t.results.findSome? StageResult.writeError?

def toValue (t : Trace) : Value := .object
  [("trace_id", .text t.id),
   ("correlation_id", .text t.correlationId),
   ("seed", .int t.seed),
   ("start_time", .int t.startTime),
   ("end_time", .int t.endTime),
   ("total_duration_ms", .int t.totalDuration),
   ("spans", .ofList Span.toValue t.spans),
   ("stage_results", .ofList StageResult.toValue t.results)]

end Trace

namespace StageTiming

def read : Read StageTiming := record fun m =>
  StageTiming.mk <$> required "stage" text m
    <*> required "start_offset" integer m
    <*> required "end_offset" integer m
    <*> required "duration_ms" integer m

def toValue (t : StageTiming) : Value := .object
  [("stage", .text t.stage),
   ("start_offset", .int t.startOffset),
   ("end_offset", .int t.endOffset),
   ("duration_ms", .int t.duration)]

end StageTiming

end WalletRouting
