import BookFeed.Proofs.Synchronizer.History
import BookFeed.Proofs.Tracker.Calls
import BookFeed.Proofs.Tracker.Inbox
import BookFeed.Proofs.Tracker.Rest

/-!
# Keeping track of the messages of a tracker

An `Audit` is a tracker with the calls that are under way, together with what has gone into it and
what has come out since its start: the messages that were sent, those that were dropped when others
were saved, what became of each message that a task processed, and the trades that were read.

Its events are those of a tracker whose tracked pairs stay. The router's turns and the calls that
save messages go from lock to lock, as in `Tracker.System`; nobody replaces the tracked pairs. What
is noted down decides about nothing.

* `processNext?_of_next?`: what is noted as processed is what the task of the pair processes;
* **`takeUp_alone`**: a turn of the router that nobody interrupts is `Tracker.step?`.

Out of scope here: trackers whose pairs are replaced, or that are stopped and started again. These
are in the histories of `BookFeed.Proofs.Tracker.Restart`.
-/

namespace BookFeed

/-- A message that the task of a pair has processed, and what came of it. -/
structure Processing extends Delivery where
  pair : String

/-- The message was a trade, which the task has handed to the stream. -/
def Processing.isForwarded (d : Processing) : Bool := decide (d.outcome.toOption = some .trade)

namespace Tracker

variable {t t' : Tracker} {p : String} {m : Message}

/-- What the task of a pair processes in its next turn, and what comes of it. -/
def next? (t : Tracker) (p : String) : Option Processing :=
  match t.pair? p with
  | none => none
  | some task =>
    if task.recovering then none
    else task.inbox.take?.map fun (m, _) => ⟨⟨m, (task.synchronizer.process m).2⟩, p⟩

/-- What is processed in an event. -/
def Event.processing? (t : Tracker) : Event → Option Processing
  | turn (.pair p) => t.next? p
  | _ => none

theorem processing?_of_ne {e : Event} (he : ∀ p, e ≠ .turn (.pair p)) :
    e.processing? t = none := by
  unfold Event.processing?
  split
  · exact absurd rfl (he _)
  · rfl

/-- **What is noted as processed is what the task of the pair processes.** -/
theorem processNext?_of_next? {d : Processing} (h : t.next? p = some d) :
    ∃ task m inbox, t.pair? p = some task ∧ task.recovering = false ∧
      task.inbox.take? = some (m, inbox) ∧ d = ⟨⟨m, (task.synchronizer.process m).2⟩, p⟩ ∧
      t.processNext? p = some (t.process p { task with inbox } m) := by
  unfold next? at h
  unfold processNext?
  cases hp : t.pair? p with
  | none =>
    rw [hp] at h
    exact absurd h (by simp)
  | some task =>
    simp only [hp] at h ⊢
    split at h
    · exact absurd h (by simp)
    · rename_i hr
      rw [if_neg hr]
      obtain ⟨⟨m, inbox⟩, htake, rfl⟩ := Option.map_eq_some_iff.mp h
      refine ⟨task, m, inbox, rfl, Bool.not_eq_true _ ▸ hr, htake, rfl, ?_⟩
      rw [htake]

/-- A turn without a message ends the pause after a fault. -/
theorem processNext?_of_next?_eq_none (hn : t.next? p = none) (h : t.processNext? p = some t') :
    ∃ task, t.pair? p = some task ∧ task.recovering = true ∧
      t' = t.reportDiffs p { task with recovering := false } := by
  unfold next? at hn
  unfold processNext? at h
  cases hp : t.pair? p with
  | none =>
    rw [hp] at h
    exact absurd h (by simp)
  | some task =>
    simp only [hp] at hn h
    split at h
    · rename_i hr
      exact ⟨task, rfl, hr, (Option.some.inj h).symm⟩
    · rename_i hr
      rw [if_neg hr, Option.map_eq_none_iff] at hn
      rw [hn] at h
      exact absurd h (by simp)

/-! ## Calls of the router -/

/-- What is dropped from an inbox when a message is put into it. -/
def Sender.drops (capacity : Nat) (b : Inbox) : Sender → List Message
  | router => []
  | saver => b.evicted capacity

theorem Sender.size_put (sender : Sender) (capacity : Nat) (b : Inbox) (m : Message) :
    (sender.put capacity b m).size + (sender.drops capacity b).length = b.size + 1 := by
  cases sender with
  | router => exact Inbox.size_deliver
  | saver => exact Inbox.size_save

/-- The call hands on a message of the router. -/
def Call.isRouted : Call → Bool
  | .check _ => true
  | .find _ sender | .enter _ sender | .hand _ sender _ => sender = .router
  | .replace _ | .untrack _ => false

@[inherit_doc Call.isRouted]
def Holder.isRouted : Holder → Bool
  | .recheck _ sender | .register _ sender | .spawn _ sender _ => sender = .router
  | .abort _ _ | .remove _ _ => false

namespace System

/-- The messages that the router has taken from its queue and not handed on. -/
def underWay (s : System) : Nat :=
  s.calls.countP (·.isRouted) + (s.holder.any (·.isRouted)).toNat

/-- A turn of the router, which takes a message from its queue and looks for its task, or ends. It
takes no message before it is done with the last one. -/
def takeUp (s : System) : System :=
  if s.tracker.schedule.isAsleep .router ∨ s.underWay ≠ 0 then s
  else
    match s.tracker.router with
    | none => s
    | some r =>
      match r.queue with
      | m :: queue =>
        ({ s with tracker := { s.tracker with router := some { r with queue } } } : System).step
          (.lookup m)
      | [] => { s with tracker := s.tracker.route?.getD s.tracker }

/-- What is dropped when the `i`-th call goes on. -/
def drops (s : System) (i : Nat) : List Message :=
  match s.calls[i]? with
  | some (.hand m sender h) =>
    match s.tracker.pair? m.pair with
    | none => []
    | some task =>
      if task.handle = h then sender.drops s.tracker.settings.backlog task.inbox else []
  | _ => []

/-- How many have been told that their message was saved. -/
def saved (s : System) : Nat := s.answers.countP (·.isOk)

theorem step_other {s : System} {e : Tracker.Event} (he : e.isRouting = false)
    (h : s.tracker.happen? e = some t) : s.step (.other e) = { s with tracker := t } := by
  simp only [step, he, Bool.false_eq_true, if_false, h, Option.getD_some]

theorem route_router (r' : Option Router) (r : Router) (m : Message) :
    ({ t with router := r' } : Tracker).route r m = t.route r m := by
  unfold route
  have hpair : ({ t with router := r' } : Tracker).pair? m.pair = t.pair? m.pair := rfl
  by_cases ht : t.tracked.contains m.pair = true
  · cases hp : t.pair? m.pair with
    | some task =>
      simp only [ht, if_true, taskFor, hpair, hp]
      rfl
    | none =>
      simp only [ht, if_true, taskFor, ensure, hpair, hp]
      rfl
  · simp only [ht]
    rfl

/-- **A turn of the router that nobody interrupts is what `step?` does at once.** -/
theorem takeUp_alone (h : t.step? .router = some t') :
    ({ tracker := t } : System).takeUp.run (.go 0 :: finding) = { tracker := t' } := by
  unfold step? at h
  split at h
  · exact absurd h (by simp)
  · rename_i hawake
    have hturn : ¬ (t.schedule.isAsleep .router ∨ ({ tracker := t } : System).underWay ≠ 0) :=
      fun hor => hor.elim hawake fun hne => hne rfl
    unfold takeUp
    rw [if_neg hturn]
    unfold route? at h
    cases hr : t.router with
    | none =>
      rw [hr] at h
      exact absurd h (by simp)
    | some r =>
      simp only [hr] at h ⊢
      cases hq : r.queue with
      | cons m queue =>
        simp only [hq, Option.some.injEq] at h ⊢
        rw [route_alone _ { r with queue } m rfl, route_router, h]
      | nil =>
        simp only [hq] at h ⊢
        split at h
        · exact absurd h (by simp)
        · rename_i hl
          have hroute : t.route? = some { t with router := none } := by
            simp only [route?, hr, hq, hl, if_false, Bool.false_eq_true]
          rw [hroute, Option.getD_some, Option.some.inj h]
          exact run_of_free (by simp [finding]) rfl rfl

end System

/-! ## Audits -/

/-- A tracker with its calls, and what has gone in and come out since its start. -/
structure Audit where
  system : System
  /-- the messages sent to the feed, with those that waited there at the start -/
  sent : List Message
  /-- the saved messages that were dropped for others -/
  dropped : List Message := []
  /-- the messages that tasks have processed, the first one first -/
  processed : List Processing := []
  /-- the trades that were read from the stream -/
  read : List Message := []

/-- What can happen next. -/
inductive Audit.Event where
  /-- what happens in a tracker; the router's turns are cut up into calls -/
  | other (e : Tracker.Event)
  | save (m : Message)
  /-- a call goes on, or waits on for the lock; calls are named by their place -/
  | go (i : Nat)
  /-- the call that has the lock goes on -/
  | hold
  /-- somebody takes the stream of trades, reads what is in it, or drops it -/
  | takeTrades
  | readTrades
  | dropTrades

namespace Audit

/-- Nothing has been done yet, but messages may wait in the feed. -/
def start (t : Tracker) : Audit where
  system := { tracker := t.start }
  sent := match t.source with
    | .feed f => f.queue
    | .polled _ _ => []

def tracker (x : Audit) : Tracker := x.system.tracker

/-- The stream of trades is changed by those who read it. -/
def setTrades (x : Audit) (trades : TradeStream) : Audit :=
  { x with system.tracker := { x.tracker with trades } }

/-- What cannot happen changes nothing. -/
def step (x : Audit) : Event → Audit
  | .other e =>
    if e.isRouting then { x with system := x.system.takeUp }
    else
      match x.tracker.happen? e with
      | none => x
      | some _ =>
        { x with
          system := x.system.step (.other e)
          sent := x.sent ++ e.sent?.toList
          processed := x.processed ++ (e.processing? x.tracker).toList }
  | .save m => { x with system := x.system.step (.save m) }
  | .go i =>
    { x with system := x.system.step (.go i), dropped := x.dropped ++ x.system.drops i }
  | .hold => { x with system := x.system.step .hold }
  | .takeTrades => x.setTrades x.tracker.trades.take.1
  | .readTrades =>
    { x.setTrades x.tracker.trades.read.1 with read := x.read ++ x.tracker.trades.read.2 }
  | .dropTrades => x.setTrades x.tracker.trades.drop

def run (x : Audit) (es : List Event) : Audit := es.foldl step x

/-- No call is under way, and no task has anything to do. -/
structure Idle (x : Audit) : Prop where
  tasks : x.tracker.Idle
  calls : x.system.calls = []
  free : x.system.holder = none

/-- The process calls that failed. -/
def faults (x : Audit) : List Processing := x.processed.filter (!·.outcome.isOk)

/-- The trades that the tasks have handed to the stream, whether or not anybody listens. -/
def forwarded (x : Audit) : List Message :=
  (x.processed.filter (·.isForwarded)).map (·.message)

variable {x : Audit}

theorem run_concat (es : List Event) (e : Event) : x.run (es ++ [e]) = (x.run es).step e :=
  List.foldl_concat ..

instance (x : Audit) : Decidable x.Idle :=
  decidable_of_iff (x.tracker.Idle ∧ x.system.calls = [] ∧ x.system.holder = none)
    ⟨fun ⟨ht, hc, hf⟩ => ⟨ht, hc, hf⟩, fun ⟨ht, hc, hf⟩ => ⟨ht, hc, hf⟩⟩

end Audit

end Tracker

end BookFeed
