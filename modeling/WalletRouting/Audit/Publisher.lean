import WalletRouting.Audit.Record
import WalletRouting.Settings.Given

/-! # Publishing audit events

An event is the short form of a record; the record itself stays retrievable by its correlation id and its seed. A
producer is created and started when an event is first to be sent, and kept for the next one. One that
fails to start is never kept. Publishing answers whether the broker took the event; it does not fail.
-/
namespace WalletRouting
set_option autoImplicit false

namespace AuditEvent

def eventType : String := "ROUTING_DECISION_EMITTED"

def ofRecord (r : AuditRecord) : Value := .object
  [("event_type", .text eventType),
   ("correlation_id", .text r.correlationId),
   ("replay_seed", .int r.seed),
   ("user_id", .text r.userId),
   ("policy_version", .text r.policyVersion),
   ("policy_signature", .text r.shortSignature),
   ("selected_route", .text r.route),
   ("selection_method", .text r.selection.typeName),
   ("is_drt", .bool r.isRouter),
   ("resolved_child", .ofOption .text r.childId),
   ("approved", .ofOption (fun a => .bool a.approved) r.authorization),
   ("error_count", .nat r.errors.length),
   ("timestamp", .int r.timestamp)]

end AuditEvent

/-- What passed between the publisher and the broker; producers are numbered as they are created. -/
inductive BrokerEvent where
  | create (producer : Nat) (brokers : Value)
  | start (producer : Nat) (started : Bool)
  | send (producer : Nat) (topic : Value) (key : String) (event : Value)
  | stop (producer : Nat) (stopped : Bool)
  deriving Repr

/-- Where events go, and whether they are published at all. -/
structure Channel where
  publishing : Bool
  brokers : Value
  topic : Value
  deriving Repr

def GivenSettings.channel (s : GivenSettings) : Channel := ⟨s.publishing, s.brokers, s.auditTopic⟩

/-- How the broker takes the attempts of one call. -/
structure Conduct where
  starts : Bool := true
  takes : Bool := true
  stops : Bool := true
  deriving Repr

structure Publisher where
  current : Option Nat := none
  created : Nat := 0
  journal : List BrokerEvent := []
  deriving Repr

namespace Publisher

def note (e : BrokerEvent) (p : Publisher) : Publisher := { p with journal := p.journal ++ [e] }

/-- The producer to send with, started if there is none yet. -/
def producer (s : Channel) (c : Conduct) (p : Publisher) : Option Nat × Publisher :=
  match p.current with
  | some n => (some n, p)
  | none =>
    let n := p.created
    let p := { p with created := n + 1 }.note (.create n s.brokers) |>.note (.start n c.starts)
    if c.starts then (some n, { p with current := some n }) else (none, p)

/-- Publishes the event of a record under its correlation id. -/
def publish (s : Channel) (c : Conduct) (r : AuditRecord) (p : Publisher) : Bool × Publisher :=
  if s.publishing then
    match p.producer s c with
    | (none, p) => (false, p)
    | (some n, p) =>
      if c.takes then (true, p.note (.send n s.topic r.correlationId (AuditEvent.ofRecord r))) else (false, p)
  else (false, p)

/-- Lets the producer go and then stops it; whether it stopped is the answer. -/
def stop (c : Conduct) (p : Publisher) : Bool × Publisher :=
  match p.current with
  | none => (true, p)
  | some n => (c.stops, { p with current := none }.note (.stop n c.stops))

end Publisher

end WalletRouting
