import BookFeed.Tracker.Basic

/-!
# What the tasks of a tracker do

`Tracker.step` lets one task do one thing: the listener forwards a message or ends, the router
routes a message, the task of a pair processes one. There is no step for a task that pauses or has
nothing to do.

Out of scope: that a task is interrupted in the middle of a step. What the router's step shares with
calls from outside, `BookFeed.Proofs.Tracker.Calls` takes apart.
-/

namespace BookFeed

/-- A diff was applied. -/
def Applied.isDiff : Applied → Bool
  | diff | outOfOrder | rebuilt _ => true
  | _ => false

namespace Tracker

/-- A text on a fault that tells when the next attempt follows. -/
def faultText (t : Tracker) (doing : String) : String :=
  "Unexpected error " ++ doing ++ ". Retrying after " ++
    toString (Nanos.toSeconds t.settings.backoff) ++ " seconds."

/-- It is time for the next report. -/
def isReportDue (t : Tracker) (lastReport : Nat) : Bool :=
  decide (t.settings.report ≤ t.now - lastReport)

/-- Lets a task pause after a fault. -/
def backOff (t : Tracker) (name : TaskName) : Tracker :=
  { t with schedule := t.schedule.pause name t.settings.backoff }

/-! ## The listener -/

/-- Hands a message to the router. -/
def forward (t : Tracker) (m : Message) : Tracker :=
  ({ t with router := t.router.map fun r => { r with queue := r.queue ++ [m] } } : Tracker).wake
    .router

/-- Ends the listener. The router ends when it has routed what it has. -/
def endListener (t : Tracker) : Tracker := ({ t with listening := false } : Tracker).wake .router

/-- Announces that the source failed, and lets the listener begin anew after a pause. -/
def sourceFault (t : Tracker) (e : Error) : Tracker :=
  (t.announce "order_book_data_source" e
    (t.faultText ("listening for " ++ t.exchange ++ " order book messages"))).backOff .listener

/-- A step of the listener. -/
def listen? (t : Tracker) : Option Tracker :=
  match t.source with
  | .feed f =>
    match f.queue with
    | m :: queue => some (({ t with source := .feed { f with queue } } : Tracker).forward m)
    | [] => if f.closed then some t.endListener else none
  | .polled s p =>
    match s.poll t.tracked.pairs t.now t.timestamp (p.getD { next := t.now }) with
    | (s, p, .begun) => some { t with source := .polled s (some p) }
    | (s, p, .forwarded m) =>
      some (({ t with source := .polled s (some p) } : Tracker).forward m)
    | (s, p, .waiting span) =>
      some { t with
        source := .polled s (some p)
        schedule := t.schedule.pause .listener span }
    | (s, _, .failed h) =>
      let t := { t with source := .polled s none }
      match h with
      | .error .cancelled | .overflow => some t.endListener
      | .error e => some (t.sourceFault e)

/-! ## The router -/

/-- The router reports, if it is time. -/
def reportRouted (t : Tracker) (r : Router) : Tracker :=
  if t.isReportDue r.lastReport then
    { t with
      reports := t.reports ++ [.routed r.accepted r.rejected]
      router := some { r with accepted := 0, rejected := 0, lastReport := t.now } }
  else { t with router := some r }

/-- Hands a message to its pair. -/
def route (t : Tracker) (r : Router) (m : Message) : Tracker :=
  match if t.tracked.contains m.pair then t.taskFor m.pair else none with
  | some (t, task) =>
    let inbox := task.inbox.deliver m
    let t := (t.setPair m.pair { task with inbox }).wake (.pair m.pair)
    t.reportRouted { r with accepted := r.accepted + 1 }
  | none =>
    (t.count (.rejected t.exchange .untracked)).reportRouted { r with rejected := r.rejected + 1 }

/-- A step of the router. -/
def route? (t : Tracker) : Option Tracker :=
  match t.router with
  | none => none
  | some r =>
    match r.queue with
    | m :: queue => some (t.route { r with queue } m)
    | [] => if t.listening then none else some { t with router := none }

/-! ## The task of a pair -/

/-- The task of a pair reports, if it is time. -/
def reportDiffs (t : Tracker) (pair : String) (task : PairTask) : Tracker :=
  if t.isReportDue task.lastReport then
    ({ t with reports := t.reports ++ [.diffs pair task.diffs] } : Tracker).setPair pair
      { task with diffs := 0, lastReport := t.now }
  else t.setPair pair task

/-- Counts what became of a message. -/
def countApplied (t : Tracker) (pair : String) : Applied → Tracker
  | .diff | .outOfOrder | .rebuilt _ => t.count (.diffs t.exchange pair)
  | .snapshot _ => t.count (.snapshots t.exchange pair)
  | .trade => t
  | .duplicate => t.count (.rejected t.exchange .duplicate)
  | .stale .snapshot => t.count (.rejected t.exchange .staleSnapshot)
  | .stale _ => t.count (.rejected t.exchange .staleDiff)

/-- The task of a pair processes a message. A fault makes it pause. -/
def process (t : Tracker) (pair : String) (task : PairTask) (m : Message) : Tracker :=
  match task.synchronizer.process m with
  | (synchronizer, result) =>
    let registry := t.registry.write task.handle fun _ => synchronizer.book
    let t := { t with registry }
    match result with
    | .ok applied =>
      let trades := if applied = .trade then t.trades.send m else t.trades
      let diffs := if applied.isDiff then task.diffs + 1 else task.diffs
      (({ t with trades } : Tracker).countApplied pair applied).reportDiffs pair
        { task with synchronizer, diffs }
    | .error e =>
      let t := t.announce "order_book_tracker" e
        (t.faultText ("processing order book messages for " ++ pair))
      (t.setPair pair { task with synchronizer, recovering := true }).backOff (.pair pair)

/-- A step of the task of a pair. -/
def processNext? (t : Tracker) (pair : String) : Option Tracker :=
  match t.pair? pair with
  | none => none
  | some task =>
    if task.recovering then some (t.reportDiffs pair { task with recovering := false })
    else
      match task.inbox.take? with
      | some (m, inbox) => some (t.process pair { task with inbox } m)
      | none => none

/-! ## All tasks -/

/-- A step of a task that does not pause. -/
def step? (t : Tracker) (name : TaskName) : Option Tracker :=
  if t.schedule.isAsleep name then none
  else
    match name with
    | .listener => if t.listening then t.listen? else none
    | .router => t.route?
    | .pair pair => t.processNext? pair

end Tracker

end BookFeed
