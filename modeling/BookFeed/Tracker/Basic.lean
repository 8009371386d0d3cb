import BookFeed.Advisory
import BookFeed.Counters
import BookFeed.Registry
import BookFeed.Schedule
import BookFeed.Source.Feed
import BookFeed.Source.Polled
import BookFeed.Source.TrackedPairs
import BookFeed.Tracker.Inbox
import BookFeed.Tracker.Settings
import BookFeed.Tracker.TradeStream

/-!
# Trackers

A tracker keeps a book for each tracked pair of an exchange. Three kinds of tasks share the work:
the listener takes messages from the source, the router hands each to its pair, and the task of a
pair brings its messages into the book. A pair gets its book and its task with its first message.

This module holds the state of a tracker and what can be asked of it from outside. What the tasks do
is in `BookFeed.Tracker.Step`, and how they take turns in `BookFeed.Tracker.Run`.

Out of scope here: what happens between the statements of a call. `taskFor`, `save`, `setTracked`
and `stop` stand for calls that nobody interrupts, and a task that is told to go is gone at once.
`BookFeed.Proofs.Tracker.Calls` takes the calls apart lock by lock, and
`BookFeed.Proofs.Tracker.Closing` does so with a stop, where a task that is told to go may go on up
to the next place at which it waits. Log lines are left out throughout, except for the counts that
tasks report.
-/

namespace BookFeed

/-- The tasks of a tracker. -/
inductive Tracker.TaskName where
  | listener
  | router
  | pair (name : String)
deriving DecidableEq, Repr

namespace Tracker.TaskName

def isPair : TaskName → Bool
  | pair _ => true
  | listener | router => false

end Tracker.TaskName

/-- Where a tracker's messages come from. -/
inductive Tracker.Source where
  | feed (feed : Feed)
  /-- polled snapshots; there is no `polling` before the listener begins, and after a fault -/
  | polled (source : PolledSource) (polling : Option Polling)

/-- A count that a task reports from time to time. -/
inductive Tracker.Report where
  /-- the diffs applied to the book of a pair -/
  | diffs (pair : String) (count : Nat)
  /-- the messages that were handed to their pairs, and those that were not -/
  | routed (accepted rejected : Nat)
deriving DecidableEq, Repr

/-- The task of a pair. -/
structure PairTask where
  /-- the registered book that the task writes -/
  handle : Handle
  synchronizer : Synchronizer
  inbox : Inbox := {}
  /-- the last message was a fault, and the pause after it is not over -/
  recovering : Bool := false
  /-- the diffs applied since the last report -/
  diffs : Nat := 0
  lastReport : Nat

/-- The task that hands messages to their pairs. -/
structure Router where
  /-- the messages from the listener, oldest first -/
  queue : List Message := []
  accepted : Nat := 0
  rejected : Nat := 0
  lastReport : Nat

open Tracker (TaskName Source Report)

/-- A tracker of one exchange. -/
structure Tracker where
  exchange : String
  settings : Tracker.Settings
  source : Source
  tracked : TrackedPairs
  /-- the time, since 1970, at which the tracker's clock stands at zero -/
  epoch : Nat := 0
  schedule : Schedule TaskName := {}
  /-- there is a listener -/
  listening : Bool := false
  router : Option Router := none
  /-- the tasks of pairs, in the order of pairs -/
  pairs : List (String × PairTask) := []
  registry : Registry := .empty
  trades : TradeStream := {}
  advisories : AdvisoryBus := .new 256
  counters : Counters := {}
  reports : List Report := []

namespace Tracker

def now (t : Tracker) : Nat := t.schedule.now

/-- The time as messages have it. -/
def timestamp (t : Tracker) : Binary64 := .ofRatio false (t.epoch + t.now) (Nanos.ofSeconds 1)

/-- The task of a pair. -/
def pair? (t : Tracker) (pair : String) : Option PairTask := Sorted.get? compare pair t.pairs

/-- Puts a pair's task back. -/
def setPair (t : Tracker) (pair : String) (task : PairTask) : Tracker :=
  { t with pairs := Sorted.insert compare pair task t.pairs }

def wake (t : Tracker) (name : TaskName) : Tracker := { t with schedule := t.schedule.wake name }

def count (t : Tracker) (c : Counter) : Tracker := { t with counters := t.counters.increment c }

/-- Announces a fault and counts it. -/
def announce (t : Tracker) (component : String) (e : Error) (message : String) : Tracker :=
  { t with
    advisories := t.advisories.announce component e message
    counters := t.counters.increment (.faults component) }

/-! ## Pairs -/

/-- Gives a pair a book and a task, which waits for its first message. -/
def spawn (t : Tracker) (pair : String) : Tracker × PairTask :=
  match t.registry.register pair with
  | (registry, handle) =>
    let task : PairTask :=
      { handle
        synchronizer := .new pair t.settings.window ((registry.read? handle).getD (.empty pair))
        lastReport := t.now }
    (({ t with registry } : Tracker).setPair pair task |>.wake (.pair pair), task)

/-- The task of a tracked pair, made now if there is none. -/
def ensure (t : Tracker) (pair : String) : Option (Tracker × PairTask) :=
  if t.tracked.contains pair then
    match t.pair? pair with
    | some task => some (t, task)
    | none => some (t.spawn pair)
  else none

/-- The task of a pair that has one already or is tracked. -/
def taskFor (t : Tracker) (pair : String) : Option (Tracker × PairTask) :=
  match t.pair? pair with
  | some task => some (t, task)
  | none => t.ensure pair

/-- Drops the task and the book of a pair. -/
def untrack (t : Tracker) (pair : String) : Tracker :=
  { t with
    pairs := Sorted.erase compare pair t.pairs
    registry := t.registry.remove pair
    schedule := t.schedule.cancel (.pair pair) }

/-- Tracks other pairs. Those that are tracked no longer lose their tasks and books. -/
def setTracked (t : Tracker) (pairs : List String) : Tracker :=
  match t.tracked.replace pairs with
  | (tracked, change) => change.removed.foldl untrack { t with tracked }

/-- Saves a message for its pair, which processes it before live ones. -/
def save (t : Tracker) (m : Message) : Except Error Tracker :=
  match t.taskFor m.pair with
  | none => .error (.orderBook (m.pair ++ " is not tracked"))
  | some (t, task) =>
    let inbox := task.inbox.save t.settings.backlog m
    .ok ((t.setPair m.pair { task with inbox }).wake (.pair m.pair))

/-! ## Start and stop -/

/-- Ends the listener and the router. -/
def dismiss (t : Tracker) : Tracker :=
  { t with
    listening := false
    router := none
    schedule := t.schedule.cancelAll (!·.isPair) }

/-- Ends the tasks of all pairs. -/
def drain (t : Tracker) : Tracker :=
  { t with pairs := [], schedule := t.schedule.cancelAll (·.isPair) }

def clearBooks (t : Tracker) : Tracker := { t with registry := t.registry.clear }

/-- Ends all tasks and drops the books. What has been sent to the feed stays there. -/
def stop (t : Tracker) : Tracker := t.dismiss.drain.clearBooks

/-- Spawns a listener and a router, where no task is left. -/
def launch (t : Tracker) : Tracker :=
  let source := match t.source with
    | .feed f => .feed f
    | .polled s _ => .polled s none
  let router : Router := { lastReport := t.now }
  let schedule := t.schedule.clear
  (({ t with source, schedule, listening := true, router := some router } : Tracker).wake
    .listener).wake .router

/-- Starts a listener and a router in the place of those there are. -/
def start (t : Tracker) : Tracker := t.stop.launch

def isRunning (t : Tracker) : Bool := t.listening || t.router.isSome

/-! ## The source -/

/-- Changes the feed, if there is one, and lets the listener look. -/
def changeFeed (t : Tracker) (f : Feed → Feed) : Tracker :=
  match t.source with
  | .feed feed =>
    let t := { t with source := .feed (f feed) }
    if t.listening then t.wake .listener else t
  | .polled _ _ => t

def send (t : Tracker) (m : Message) : Tracker := t.changeFeed (·.send m)

def closeFeed (t : Tracker) : Tracker := t.changeFeed Feed.close

/-- The throttler of a polled source. -/
def throttler? (t : Tracker) : Option Throttler :=
  match t.source with
  | .feed _ => none
  | .polled s _ => some s.throttler

/-- Stops the throttler of a polled source. -/
def stopThrottler (t : Tracker) : Tracker :=
  match t.source with
  | .feed _ => t
  | .polled s p => { t with source := .polled { s with throttler := s.throttler.stop } p }

end Tracker

end BookFeed
