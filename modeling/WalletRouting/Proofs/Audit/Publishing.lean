import Mathlib.Data.List.Infix
import WalletRouting.Audit.Publisher

/-! # One producer at a time

Events are published and the producer is stopped in any order, and the broker may refuse to start, to take what is sent
or to stop. The producer that is kept is the only one that runs: none is left running when it is let go, and none is
started beside it.
-/
namespace WalletRouting
set_option autoImplicit false

namespace BrokerEvent

def producer : BrokerEvent → Nat
  | .create n _ => n
  | .start n _ => n
  | .send n _ _ _ => n
  | .stop n _ => n

/-- Who runs once the event has happened. A producer that is handed to stop counts as gone, whether it stops or not. -/
def leaves (running : List Nat) : BrokerEvent → List Nat
  | .start n true => n :: running
  | .stop n _ => running.filter (· ≠ n)
  | _ => running

end BrokerEvent

namespace Publisher

/-- The producers that have been started and have not been handed to stop since. -/
def running (journal : List BrokerEvent) : List Nat := journal.foldl BrokerEvent.leaves []

@[simp] theorem running_concat (journal : List BrokerEvent) (e : BrokerEvent) :
    running (journal ++ [e]) = e.leaves (running journal) := by
  simp [running]

inductive Call where
  | publish (s : Channel) (c : Conduct) (r : AuditRecord)
  | stop (c : Conduct)

def Call.apply (p : Publisher) : Call → Bool × Publisher
  | .publish s c r => p.publish s c r
  | .stop c => p.stop c

def after (calls : List Call) (p : Publisher) : Publisher := calls.foldl (fun p call => (call.apply p).2) p

/-- What the journal tells of: the producer that is kept is the one that runs, there was never more than one, and the
numbers still to come are new. -/
structure Accounted (p : Publisher) : Prop where
  kept : running p.journal = p.current.toList
  single : ∀ past, past <+: p.journal → (running past).length ≤ 1
  numbered : ∀ e ∈ p.journal, e.producer < p.created

variable {p q : Publisher} {s : Channel} {c : Conduct} {r : AuditRecord}

theorem accounted_initial : Accounted {} where
  kept := rfl
  single past h := by simp [List.prefix_nil.mp h, running]
  numbered e h := by cases h

theorem Accounted.concat (h : p.Accounted) {e : BrokerEvent} (hjournal : q.journal = p.journal ++ [e])
    (hleaves : e.leaves p.current.toList = q.current.toList) (hcreated : p.created ≤ q.created)
    (hproducer : e.producer < q.created) : q.Accounted where
  kept := by rw [hjournal, running_concat, h.kept, hleaves]
  single := by
    intro past hpast
    rw [hjournal] at hpast
    rcases List.prefix_concat_iff.mp hpast with rfl | hpast
    · rw [running_concat, h.kept, hleaves]
      cases q.current <;> simp
    · exact h.single past hpast
  numbered := by
    intro other hother
    rw [hjournal] at hother
    rcases List.mem_append.mp hother with hold | hnew
    · exact Nat.lt_of_lt_of_le (h.numbered other hold) hcreated
    · rwa [List.mem_singleton.mp hnew]

theorem mem_running_of_leaves {running : List Nat} {e : BrokerEvent} {n : Nat} (h : n ∈ e.leaves running)
    (he : e.producer ≠ n) : n ∈ running := by
  cases e with
  | create m brokers => exact h
  | start m starts =>
    cases starts with
    | true => exact (List.mem_cons.mp h).resolve_left (Ne.symm he)
    | false => exact h
  | send m topic key event => exact h
  | stop m stops => exact (List.mem_filter.mp h).1

theorem exists_of_mem_running {journal : List BrokerEvent} {n : Nat} (h : n ∈ running journal) :
    ∃ e ∈ journal, e.producer = n := by
  induction journal using List.reverseRecOn with
  | nil => cases h
  | append_singleton past e ih =>
    rw [running_concat] at h
    by_cases he : e.producer = n
    · exact ⟨e, List.mem_append_right past List.mem_cons_self, he⟩
    · obtain ⟨earlier, hearlier, hproducer⟩ := ih (mem_running_of_leaves h he)
      exact ⟨earlier, List.mem_append_left _ hearlier, hproducer⟩

theorem Accounted.current_lt (h : p.Accounted) {n : Nat} (hn : p.current = some n) : n < p.created := by
  have hrunning : n ∈ running p.journal := by simp [h.kept, hn]
  obtain ⟨e, he, rfl⟩ := exists_of_mem_running hrunning
  exact h.numbered e he

theorem Accounted.producer (h : p.Accounted) (s : Channel) (c : Conduct) :
    (p.producer s c).2.Accounted ∧ (p.producer s c).1 = (p.producer s c).2.current := by
  cases hcurrent : p.current with
  | some n => simpa [Publisher.producer, hcurrent] using h
  | none =>
    have hcreated : ({ p with created := p.created + 1 }.note (.create p.created s.brokers)).Accounted :=
      h.concat rfl rfl (Nat.le_succ _) (Nat.lt_succ_self _)
    cases hstarts : c.starts with
    | true =>
      simp only [Publisher.producer, hcurrent, hstarts, if_true]
      exact ⟨hcreated.concat rfl (by simp [note, hcurrent, BrokerEvent.leaves]) le_rfl (Nat.lt_succ_self _), trivial⟩
    | false =>
      simp only [Publisher.producer, hcurrent, hstarts, Bool.false_eq_true, if_false]
      exact ⟨hcreated.concat rfl (by simp [note, hcurrent, BrokerEvent.leaves]) le_rfl (Nat.lt_succ_self _), rfl⟩

theorem Accounted.publish (h : p.Accounted) (s : Channel) (c : Conduct) (r : AuditRecord) :
    (p.publish s c r).2.Accounted := by
  obtain ⟨hq, hanswer⟩ := h.producer s c
  unfold Publisher.publish
  split
  · split
    next heq => simpa [heq] using hq
    next n q heq =>
      rw [heq] at hq hanswer
      split
      · exact hq.concat rfl rfl le_rfl (hq.current_lt hanswer.symm)
      · exact hq
  · exact h

theorem Accounted.stop (h : p.Accounted) (c : Conduct) : (p.stop c).2.Accounted := by
  cases hcurrent : p.current with
  | none => simpa [Publisher.stop, hcurrent] using h
  | some n =>
    simp only [Publisher.stop, hcurrent]
    exact h.concat rfl (by simp [note, hcurrent, BrokerEvent.leaves]) le_rfl (h.current_lt hcurrent)

theorem Accounted.apply (h : p.Accounted) : ∀ call : Call, (call.apply p).2.Accounted
  | .publish s c r => h.publish s c r
  | .stop c => h.stop c

theorem accounted_after (calls : List Call) : (after calls {}).Accounted := by
  induction calls using List.reverseRecOn with
  | nil => exact accounted_initial
  | append_singleton calls call ih => simpa [after] using ih.apply call

/-- What has passed between the publisher and the broker since an earlier state. -/
def since (p q : Publisher) : List BrokerEvent := q.journal.drop p.journal.length

theorem since_eq {more : List BrokerEvent} (h : q.journal = p.journal ++ more) : since p q = more := by
  simp [since, h]

/-- The producer with which a call sends, if it gets that far. -/
def sender (c : Conduct) (p : Publisher) : Option Nat := p.current <|> if c.starts then some p.created else none

/-- What passes until there is a producer to send with. -/
def preparation (s : Channel) (c : Conduct) (p : Publisher) : List BrokerEvent :=
  match p.current with
  | some _ => []
  | none => [.create p.created s.brokers, .start p.created c.starts]

theorem producer_eq (s : Channel) (c : Conduct) (p : Publisher) :
    (p.producer s c).1 = p.sender c ∧ (p.producer s c).2.journal = p.journal ++ p.preparation s c ∧
      (p.producer s c).2.current = p.sender c := by
  cases hcurrent : p.current <;> cases hstarts : c.starts <;>
    simp [Publisher.producer, sender, preparation, note, hcurrent, hstarts]

/-- The event of a record, sent by a producer. -/
def message (n : Nat) (s : Channel) (r : AuditRecord) : BrokerEvent :=
  .send n s.topic r.correlationId (AuditEvent.ofRecord r)

theorem publish_eq (c : Conduct) (r : AuditRecord) (p : Publisher) (hpublishing : s.publishing = true) :
    (p.publish s c r).1 = ((p.sender c).isSome && c.takes) ∧
      since p (p.publish s c r).2 =
        p.preparation s c ++ (if c.takes then (p.sender c).toList.map (message · s r) else []) ∧
      (p.publish s c r).2.current = p.sender c := by
  obtain ⟨hanswer, hjournal, hcurrent⟩ := producer_eq s c p
  simp only [publish, hpublishing, if_true]
  split
  next q heq =>
    rw [heq] at hanswer hjournal hcurrent
    simp only at hanswer hjournal hcurrent
    simp [← hanswer, hcurrent, since_eq hjournal]
  next n q heq =>
    rw [heq] at hanswer hjournal hcurrent
    simp only at hanswer hjournal hcurrent
    cases htakes : c.takes
    · simp [← hanswer, hcurrent, since_eq hjournal]
    · have hsent : (q.note (message n s r)).journal = p.journal ++ (p.preparation s c ++ [message n s r]) := by
        simp [note, hjournal]
      rw [← hanswer] at hcurrent ⊢
      exact ⟨rfl, since_eq hsent, hcurrent⟩

/-- What a call to publish answers, and what it sends on the way. -/
structure Answers (p : Publisher) (s : Channel) (c : Conduct) (r : AuditRecord) : Prop where
  acknowledged : (p.publish s c r).1 = true ↔
    s.publishing = true ∧ (p.current.isSome = true ∨ c.starts = true) ∧ c.takes = true
  answered : (p.publish s c r).1 = true ↔
    s.publishing = true ∧ ∃ n topic key event, .send n topic key event ∈ since p (p.publish s c r).2
  sent : ∀ n topic key event, .send n topic key event ∈ since p (p.publish s c r).2 →
    topic = s.topic ∧ key = r.correlationId ∧ event = AuditEvent.ofRecord r ∧ (p.publish s c r).2.current = some n
  silent : s.publishing = false → (p.publish s c r).2 = p

theorem isSome_sender : (p.sender c).isSome = (p.current.isSome || c.starts) := by
  cases hcurrent : p.current <;> cases hstarts : c.starts <;> simp [sender, hcurrent, hstarts]

theorem send_not_mem_preparation {n : Nat} {topic : Value} {key : String} {event : Value} :
    .send n topic key event ∉ p.preparation s c := by
  unfold preparation
  split <;> simp

theorem answers (p : Publisher) (s : Channel) (c : Conduct) (r : AuditRecord) : p.Answers s c r := by
  cases hpublishing : s.publishing with
  | false =>
    have hquiet : p.publish s c r = (false, p) := by simp [publish, hpublishing]
    constructor <;> simp [hquiet, hpublishing, since]
  | true =>
    obtain ⟨hanswer, hsince, hcurrent⟩ := publish_eq c r p hpublishing
    have hsend (n : Nat) (topic : Value) (key : String) (event : Value) :
        .send n topic key event ∈ since p (p.publish s c r).2 ↔
          p.sender c = some n ∧ c.takes = true ∧ .send n topic key event = message n s r := by
      rw [hsince, List.mem_append, or_iff_right send_not_mem_preparation]
      cases c.takes with
      | false => simp
      | true =>
        simp only [if_true, List.mem_map, Option.mem_toList, true_and]
        constructor
        · rintro ⟨m, hsender, hmessage⟩
          obtain rfl : m = n := congrArg BrokerEvent.producer hmessage
          exact ⟨hsender, hmessage.symm⟩
        · rintro ⟨hsender, hmessage⟩
          exact ⟨n, hsender, hmessage.symm⟩
    constructor
    · simp [hanswer, hpublishing, isSome_sender]
    · simp [hanswer, hpublishing, hsend, Option.isSome_iff_exists, message]
    · intro n topic key event hmem
      obtain ⟨hsender, -, hmessage⟩ := (hsend n topic key event).mp hmem
      simp only [message, BrokerEvent.send.injEq, true_and] at hmessage
      exact ⟨hmessage.1, hmessage.2.1, hmessage.2.2, hcurrent.trans hsender⟩
    · simp [hpublishing]

/-- The calls that leave no producer behind: a stop, and one in which a producer fails to start. -/
def Call.Releases (p : Publisher) : Call → Prop
  | .publish s c r => ∃ n, .start n false ∈ since p (p.publish s c r).2
  | .stop _ => True

def Call.Idle : Call → Prop
  | .publish s _ _ => s.publishing = false
  | .stop _ => True

/-- A call to publish begins with a producer that has not been seen before, and keeps it if it starts. -/
structure StartsNew (p : Publisher) (s : Channel) (c : Conduct) (r : AuditRecord) : Prop where
  begins : [.create p.created s.brokers, .start p.created c.starts] <+: since p (p.publish s c r).2
  unseen : ∀ e ∈ p.journal, e.producer ≠ p.created
  keeps : (p.publish s c r).2.current = if c.starts then some p.created else none

theorem Accounted.startsNew (h : p.Accounted) (hcurrent : p.current = none) (hpublishing : s.publishing = true)
    (c : Conduct) (r : AuditRecord) : p.StartsNew s c r := by
  obtain ⟨-, hsince, hafter⟩ := publish_eq c r p hpublishing
  constructor
  · rw [hsince]
    simp [preparation, hcurrent]
  · exact fun e he => (h.numbered e he).ne
  · simp [hafter, sender, hcurrent]

theorem current_apply_of_releases : ∀ call : Call, call.Releases p → (call.apply p).2.current = none
  | .stop c, _ => by cases hcurrent : p.current <;> simp [Call.apply, stop, note, hcurrent]
  | .publish s c r, ⟨n, hstart⟩ => by
    cases hpublishing : s.publishing with
    | false => simp [publish, hpublishing, since] at hstart
    | true =>
      obtain ⟨-, hsince, hafter⟩ := publish_eq c r p hpublishing
      have hunstarted : p.current = none ∧ c.starts = false := by
        rw [hsince, List.mem_append] at hstart
        cases hcurrent : p.current <;> simp_all [preparation, message]
      simp [Call.apply, hafter, sender, hunstarted]

theorem current_after_of_idle {calls : List Call} (hidle : ∀ call ∈ calls, call.Idle) (h : p.current = none) :
    (after calls p).current = none := by
  induction calls generalizing p with
  | nil => exact h
  | cons call calls ih =>
    have hcall : (call.apply p).2.current = none := by
      cases call with
      | publish s c r =>
        have hpublishing : s.publishing = false := hidle (.publish s c r) (by simp)
        simpa [Call.apply, publish, hpublishing] using h
      | stop c => exact current_apply_of_releases _ trivial
    exact ih (fun other hother => hidle other (List.mem_cons_of_mem _ hother)) hcall

/-- In every history of publications and stops: the one running producer is the current one; a publication answers
whether the broker took its event; and whatever has let the producer go, the next publication starts a new one. -/
theorem one_producer_at_a_time (calls : List Call) :
    let p := after calls {}
    p.Accounted ∧ (∀ s c r, p.Answers s c r) ∧
      ∀ (call : Call) (idle : List Call), call.Releases p → (∀ other ∈ idle, other.Idle) →
        let q := after idle (call.apply p).2
        q.current = none ∧ ∀ s c r, s.publishing = true → q.StartsNew s c r := by
  intro p
  refine ⟨accounted_after calls, p.answers, fun call idle hreleases hidle => ?_⟩
  intro q
  have hcurrent : q.current = none := current_after_of_idle hidle (current_apply_of_releases call hreleases)
  have hq : q.Accounted := by
    have hhistory : q = after (calls ++ call :: idle) {} := by simp [q, p, after]
    rw [hhistory]
    exact accounted_after _
  exact ⟨hcurrent, fun s c r hpublishing => hq.startsNew hcurrent hpublishing c r⟩

end Publisher

end WalletRouting
