import BookFeed.Proofs.Synchronizer.History
import BookFeed.Proofs.Tracker.Inbox

/-!
# The task of a pair at work

What the task of a pair does with one message is not one step, and a save is not either. A save puts
its message into the backlog and then gives notice. The task looks at the backlog; where nothing is
saved it turns to the notices and to the live messages, and where there is neither it waits. To give
notice to a task that waits sends it back to the backlog. Other notices are not counted: they leave
one permit, which may be from a save whose message is gone already, and which lets the task look at
the backlog once more. A task that is called for a live message does not look at the backlog again:
it goes on where it waits, with the notices and the live messages.

A `Desk` is all that takes part in this, and an event is one access to what the task shares with
those who save and deliver, so each list of events is an interleaving. The journal of a desk says
what has happened. It decides about nothing.

Out of scope: that a task ends, where its pair is no longer tracked or its tracker is stopped
(`BookFeed.Proofs.Tracker.Calls`, `BookFeed.Proofs.Tracker.Closing`), and how long a pause is.
-/

namespace BookFeed

/-- Where the task of a pair stands. -/
inductive Stance where
  /-- about to look at the backlog -/
  | looking
  /-- has found nothing saved, and is about to see what else there is -/
  | turning
  /-- has found nothing at all; it may have been called for a live message by now -/
  | waiting (called : Bool)
  | busy (m : Message)
  /-- the pause after a fault -/
  | pausing
deriving DecidableEq

namespace Stance

/-- A call for a task that waits. -/
def call : Stance → Stance
  | waiting _ => waiting true
  | s => s

/-- The message in the hands of the task. -/
def inHand : Stance → List Message
  | busy m => [m]
  | _ => []

/-- The task has found the backlog empty and taken nothing since. -/
def isPast : Stance → Bool
  | turning | waiting _ => true
  | _ => false

end Stance

/-- How a message has left the backlog. -/
inductive Departure where
  | taken (m : Message)
  /-- for a message that was saved when these were waiting -/
  | dropped (m : Message) (backlog : List Message)
deriving DecidableEq

namespace Departure

def message : Departure → Message
  | taken m | dropped m _ => m

def taken? : Departure → Option Message
  | taken m => some m
  | dropped _ _ => none

variable (m : Message) (backlog : List Message)

@[simp] theorem message_taken : (taken m).message = m := rfl

@[simp] theorem message_dropped : (dropped m backlog).message = m := rfl

@[simp] theorem taken?_taken : (taken m).taken? = some m := rfl

@[simp] theorem taken?_dropped : (dropped m backlog).taken? = none := rfl

end Departure

/-- A message that the task has taken. -/
structure Taking where
  message : Message
  /-- it was saved; otherwise it was a live one -/
  saved : Bool
  /-- the saved messages that were waiting when it was taken -/
  backlog : List Message
  /-- those of them whose saves had given notice -/
  ready : List Message
deriving DecidableEq

/-- What has happened at a desk. All lists have the first first. -/
structure Journal where
  saved : List Message := []
  departed : List Departure := []
  delivered : List Message := []
  taken : List Taking := []
  processed : List Delivery := []

/-- What has come in: the saved messages, and the delivered ones. -/
def Journal.arrivals (j : Journal) : List Message × List Message := (j.saved, j.delivered)

/-- The task of a pair with all that it shares. -/
structure Desk where
  synchronizer : Synchronizer
  inbox : Inbox := {}
  stance : Stance := .looking
  /-- somebody has given notice when the task did not wait, and it has not asked since -/
  permit : Bool := false
  /-- the saves that have put their message down and not given notice, by their place in the
  journal -/
  halfway : List Nat := []
  journal : Journal := {}

namespace Desk

/-- What can happen next. -/
inductive Event where
  /-- a save, in one step -/
  | save (m : Message)
  /-- a save in two steps: it puts its message down -/
  | put (m : Message)
  /-- and gives notice; saves are named by their place in the journal -/
  | notify (n : Nat)
  | deliver (m : Message)
  /-- the task chooses its next message, in one step -/
  | choose
  /-- the task chooses in steps: it looks at the backlog -/
  | look
  /-- and if that was empty, it sees whether there was a notice, or else a live message -/
  | poll
  /-- the task is done with its message -/
  | finish
  /-- the pause is over -/
  | resume
deriving DecidableEq

/-- The saved messages that wait, each with the place of its save in the journal. -/
def line (d : Desk) : List (Message × Nat) := d.inbox.saved.zipIdx d.journal.departed.length

/-- The saved messages that wait and whose saves have given notice. -/
def ready (d : Desk) : List Message := (d.line.filter (·.2 ∉ d.halfway)).map (·.1)

/-- A save puts its message down. -/
def put (capacity : Nat) (d : Desk) (m : Message) : Desk :=
  { d with
    inbox := d.inbox.save capacity m
    halfway := d.halfway ++ [d.journal.saved.length]
    journal := { d.journal with
      saved := d.journal.saved ++ [m]
      departed := d.journal.departed ++
        (d.inbox.evicted capacity).map (.dropped · d.inbox.saved) } }

/-- A save gives notice. A task that waits is told itself, and no permit is left. -/
def notify (d : Desk) (n : Nat) : Desk :=
  if n ∈ d.halfway then
    match d.stance with
    | .waiting _ => { d with halfway := d.halfway.erase n, stance := .looking }
    | _ => { d with halfway := d.halfway.erase n, permit := true }
  else d

/-- A save that nobody interrupts. -/
def save (capacity : Nat) (d : Desk) (m : Message) : Desk :=
  (d.put capacity m).notify d.journal.saved.length

def deliver (d : Desk) (m : Message) : Desk :=
  { d with
    inbox := d.inbox.deliver m
    stance := d.stance.call
    journal := { d.journal with delivered := d.journal.delivered ++ [m] } }

/-- The task takes the oldest saved message, if there is one. -/
def look (d : Desk) : Desk :=
  match d.inbox.saved with
  | [] => { d with stance := .turning }
  | m :: rest =>
    { d with
      inbox := { d.inbox with saved := rest }
      stance := .busy m
      journal := { d.journal with
        departed := d.journal.departed ++ [.taken m]
        taken := d.journal.taken ++ [⟨m, true, d.inbox.saved, d.ready⟩] } }

/-- The task uses up the permit, or takes the oldest live message, or waits. -/
def poll (d : Desk) : Desk :=
  if d.permit then { d with permit := false, stance := .looking }
  else
    match d.inbox.live with
    | [] => { d with stance := .waiting false }
    | m :: rest =>
      { d with
        inbox := { d.inbox with live := rest }
        stance := .busy m
        journal := { d.journal with
          taken := d.journal.taken ++ [⟨m, false, d.inbox.saved, d.ready⟩] } }

/-- A whole choice. Where nothing is saved, a permit only makes the task look once more. -/
def choose (d : Desk) : Desk :=
  match d.inbox.saved with
  | [] => ({ d with permit := false } : Desk).poll
  | _ :: _ => d.look

/-- The task processes a message. A fault makes it pause. -/
def finish (d : Desk) (m : Message) : Desk :=
  match d.synchronizer.process m with
  | (synchronizer, outcome) =>
    { d with
      synchronizer
      stance := if outcome.isOk then .looking else .pausing
      journal := { d.journal with processed := d.journal.processed ++ [⟨m, outcome⟩] } }

/-- What cannot happen changes nothing. -/
def step (capacity : Nat) (d : Desk) : Event → Desk
  | .save m => d.save capacity m
  | .put m => d.put capacity m
  | .notify n => d.notify n
  | .deliver m => d.deliver m
  | .choose => if d.stance = .looking then d.choose else d
  | .look => if d.stance = .looking then d.look else d
  | .poll => if d.stance = .turning ∨ d.stance = .waiting true then d.poll else d
  | .finish =>
    match d.stance with
    | .busy m => d.finish m
    | _ => d
  | .resume => if d.stance = .pausing then { d with stance := .looking } else d

def run (capacity : Nat) (d : Desk) (es : List Event) : Desk := es.foldl (step capacity) d

/-- The desk of a task that has just been spawned. -/
def new (s : Synchronizer) : Desk := { synchronizer := s }

namespace Event

/-- The message that is saved. -/
def saved? : Event → Option Message
  | save m | put m => some m
  | _ => none

/-- The message that is delivered. -/
def delivered? : Event → Option Message
  | deliver m => some m
  | _ => none

/-- The event is the first half of a save. -/
def isPut : Event → Bool
  | put _ => true
  | _ => false

/-- The event brings no new message. -/
def isOwn : Event → Bool
  | save _ | put _ | deliver _ => false
  | notify _ | choose | look | poll | finish | resume => true

end Event

variable {capacity : Nat} {d : Desk} {m : Message} {s : Synchronizer}

theorem run_concat (es : List Event) (e : Event) :
    d.run capacity (es ++ [e]) = (d.run capacity es).step capacity e := List.foldl_append

theorem run_append (es es' : List Event) :
    d.run capacity (es ++ es') = (d.run capacity es).run capacity es' := List.foldl_append

@[simp] theorem journal_notify (n : Nat) : (d.notify n).journal = d.journal := by
  unfold notify
  split
  · split <;> rfl
  · rfl

/-! ## Saves that have given notice -/

theorem ready_eq_nil_iff : d.ready = [] ↔ ∀ x ∈ d.line, x.2 ∈ d.halfway := by
  simp [ready]

/-- Where no save is halfway, all that waits is ready. -/
theorem ready_of_whole (h : d.halfway = []) : d.ready = d.inbox.saved := by
  have hall : d.line.filter (·.2 ∉ d.halfway) = d.line :=
    List.filter_eq_self.mpr fun x _ => by simp [h]
  rw [ready, hall]
  exact List.zipIdx_map_fst _ _

/-- **A choice that nobody interrupts is the same in one step.** A permit makes the task look
twice. -/
theorem choose_alone (h : d.stance = .looking) :
    d.run capacity [.look, .poll, .look, .poll] = d.step capacity .choose := by
  obtain ⟨synchronizer, ⟨saved, live⟩, stance, permit, halfway, journal⟩ := d
  obtain rfl : stance = .looking := h
  cases saved with
  | cons m rest => simp [run, step, look, choose]
  | nil =>
    -- the second look and the second poll happen only where the first poll used up a permit
    cases permit <;> cases live <;> simp [run, step, look, poll, choose, ready, line]

end Desk

end BookFeed
