import MiniDht.Lib.Fifo
import MiniDht.Session.Life

/-!
# The write queue of a session

`deliver` starts a write when the queue was empty, and `handle_write` when it is not empty
yet; the message that is being written stays at the front. As long as no write fails, the
session hands over what was delivered to it, in order and once each (`queue_in_order`).
-/

namespace MiniDht

open Lib

namespace Session

/-- The message an event delivers. -/
def Event.delivery : Event → Option BasicMessage
  | deliver msg => some msg
  | _ => none

/-- The event is the end of a write. -/
def Event.endsWrite : Event → Bool
  | written _ => true
  | _ => false

/-- The messages `deliver` was called with, in order. -/
def deliveries (steps : List (Session × Event)) : List BasicMessage :=
  steps.filterMap fun step => step.2.delivery

/-- How many writes are complete. -/
def completed (steps : List (Session × Event)) : Nat :=
  steps.countP fun step => step.2.endsWrite

/-- The session works a queue off: what waits is in it, and what was begun is handed over. -/
structure Serves (q : Fifo BasicMessage) (s : Session) : Prop where
  queue : s.writeMsgs = q.waiting
  begun : s.handedOver = q.begun

variable {packetSize : Nat} {s s' : Session} {e : Event} {q : Fifo BasicMessage}
  {steps : List (Session × Event)}

/-! ## What an event does to the queue -/

theorem handedOver_write (s : Session) (m : BasicMessage) :
    (s.write m).handedOver = s.handedOver ++ [m] := by
  simp [handedOver, write, Notice.toWrite]

theorem Serves.deliver (serves : s.Serves q) (msg : BasicMessage) :
    (s.deliver msg).Serves (q.push msg) := by
  obtain ⟨queue, begun⟩ := serves
  refine ⟨by rw [deliver_writeMsgs, q.waiting_push, queue], ?_⟩
  rw [Session.deliver]
  by_cases idle : q.waiting = []
  · have none : (!s.writeMsgs.isEmpty) = false := by simp [queue, idle]
    simp only [none, Bool.false_eq_true, if_false]
    rw [handedOver_write, Fifo.begun_push_idle idle, ← begun]
    rfl
  · have some : (!s.writeMsgs.isEmpty) = true := by simp [queue, idle]
    simp only [some, if_true]
    rw [Fifo.begun_push_busy idle, ← begun]
    rfl

/-- The end of a write takes its message off the queue, and begins the next. -/
theorem Serves.written (serves : s.Serves q) (some : q.waiting ≠ []) :
    s.written.Serves (q.finish some) := by
  obtain ⟨queue, begun⟩ := serves
  have tail : s.writeMsgs.tail = (q.finish some).waiting := by rw [q.waiting_finish, queue]
  have next := q.begun_finish some
  rw [← queue] at next
  rw [Session.written]
  cases rest : s.writeMsgs.tail with
  | nil =>
    rw [rest] at tail next
    exact ⟨tail, by rw [next, ← begun, List.head?_nil, Option.toList_none, List.append_nil]; rfl⟩
  | cons m rest' =>
    rw [rest] at tail next
    refine ⟨tail, ?_⟩
    rw [handedOver_write, next, ← begun]
    rfl

/-- The other events leave the queue alone. -/
theorem step_queue (stepped : s.step packetSize e = some s') (none : e.delivery = none)
    (other : e.endsWrite = false) : s'.writeMsgs = s.writeMsgs ∧ s'.handedOver = s.handedOver := by
  cases step_effect stepped with
  | delivered msg event after =>
    subst event
    cases none
  | read op next works idle on => exact ⟨on.queue, on.handedOver⟩
  | readFailed op s₁ holds fails idle on after =>
    rw [after, writeMsgs_release, handedOver_release]
    exact ⟨on.queue, on.handedOver⟩
  | written out event after =>
    subst event
    cases other
  | writeFailed out event after =>
    subst event
    cases other

/-- What one event makes of the queue. -/
theorem Serves.step (serves : s.Serves q) (waits : .write ∈ s.pending → q.waiting ≠ [])
    (stepped : s.step packetSize e = some s') (works : ¬ e.FailsWrite) :
    ∃ q', s'.Serves q' ∧ q'.all = q.all ++ e.delivery.toList ∧
      q'.done = q.done + e.endsWrite.toNat := by
  by_cases other : e.delivery = none ∧ e.endsWrite = false
  · obtain ⟨queue, begun⟩ := step_queue stepped other.1 other.2
    exact ⟨q, ⟨queue.trans serves.queue, begun.trans serves.begun⟩, by simp [other.1], by simp [other.2]⟩
  cases e with
  | deliver msg =>
    cases stepped
    exact ⟨_, serves.deliver msg, rfl, rfl⟩
  | written error =>
    obtain ⟨out, ends⟩ := of_completes stepped
    cases ends
    obtain rfl : error = false := by simpa [Event.FailsWrite] using works
    have some := waits out
    have before : ({ s with pending := s.pending.erase .write } : Session).drop.Serves q :=
      ⟨serves.queue, serves.begun⟩
    exact ⟨_, before.written some, by simp [Fifo.finish, Event.delivery], rfl⟩
  | connected error => exact absurd ⟨rfl, rfl⟩ other
  | header bytes attached => exact absurd ⟨rfl, rfl⟩ other
  | body bytes => exact absurd ⟨rfl, rfl⟩ other
  | handled threw => exact absurd ⟨rfl, rfl⟩ other

/-! ## Runs -/

/-- A session serves the queue of what has been delivered to it. -/
theorem Lived.serves (lived : Lived packetSize steps s) (works : ∀ step ∈ steps, ¬ step.2.FailsWrite) :
    ∃ q : Fifo BasicMessage, s.Serves q ∧ q.all = deliveries steps ∧ q.done = completed steps := by
  induction lived with
  | created remote => exact ⟨.empty, ⟨rfl, rfl⟩, rfl, rfl⟩
  | accepted remote => exact ⟨.empty, ⟨rfl, rfl⟩, rfl, rfl⟩
  | connecting remote ep => exact ⟨.empty, ⟨rfl, rfl⟩, rfl, rfl⟩
  | @step steps s s' e lived stepped ih =>
    obtain ⟨before, now⟩ := List.forall_mem_append.mp works
    obtain ⟨q, serves, all, done⟩ := ih before
    obtain ⟨readFailed, writeFailed, counted, -, -⟩ := lived_counted lived
    have waits (out : .write ∈ s.pending) : q.waiting ≠ [] := serves.queue ▸ (counted.writing out).2
    obtain ⟨q', serves', all', done'⟩ :=
      serves.step waits stepped (now (s, e) (List.mem_singleton_self _))
    refine ⟨q', serves', ?_, ?_⟩
    · rw [all', all, deliveries, deliveries, List.filterMap_append]
      cases delivered : e.delivery <;> simp [delivered]
    · rw [done', done, completed, completed, List.countP_append, List.countP_singleton]
      cases e.endsWrite <;> rfl

/-- **The write queue.** While no write fails, the messages handed to `async_write` are the
first of those delivered, in order; one write at most is outstanding, and one is while
messages wait; and when none is, every message delivered has been written. -/
theorem queue_in_order (lived : Lived packetSize steps s)
    (works : ∀ step ∈ steps, ¬ step.2.FailsWrite) :
    s.handedOver <+: deliveries steps ∧ s.writes ≤ 1 ∧ (s.writes = 1 ↔ s.writeMsgs ≠ []) ∧
      (s.writes = 0 →
        s.handedOver = deliveries steps ∧ completed steps = (deliveries steps).length) := by
  obtain ⟨q, serves, all, done⟩ := lived.serves works
  obtain ⟨readFailed, writeFailed, counted, -, failed⟩ := lived_counted lived
  have working : writeFailed = false := by
    rw [← Bool.not_eq_true, failed]
    rintro ⟨step, there, fails⟩
    exact works step there fails
  have writes := counted.writes
  rw [working, Bool.toNat_false, Nat.add_zero] at writes
  rw [serves.begun, ← all, ← done, writes]
  refine ⟨q.begun_prefix, by split <;> omega, ?_, fun none => ?_⟩
  · by_cases idle : s.writeMsgs = []
    · simp [idle]
    · simp [idle]
  · have idle : s.writeMsgs = [] := by
      by_contra some
      rw [if_neg some] at none
      exact absurd none Nat.one_ne_zero
    exact (Fifo.idle (serves.queue ▸ idle)).symm

/-- The theorem at a session that writes two messages, the second handed to it while the first
is being written. -/
theorem queue_in_order_two :
    ∃ (steps : List (Session × Event)) (s : Session), Lived 1024 steps s ∧
      steps.map Prod.snd = [.deliver { listenPort := 1 }, .deliver { listenPort := 2 },
        .written false, .written false] ∧ s.writes = 0 ∧
      s.handedOver = [{ listenPort := 1 }, { listenPort := 2 }] := by
  have started : Lived 1024 [] _ := .connecting unspecified unspecified
  have lived := (((started.step (e := .deliver { listenPort := 1 }) rfl).step
    (e := .deliver { listenPort := 2 }) rfl).step (e := .written false) rfl).step
    (e := .written false) rfl
  obtain ⟨-, -, -, written⟩ := queue_in_order lived (by simp [Event.FailsWrite])
  exact ⟨_, _, lived, rfl, rfl, (written rfl).1⟩

end Session

end MiniDht
