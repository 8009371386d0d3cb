import BookFeed.Throttler.Basic

/-!
# Requests that wait

A request that finds no room makes another attempt after the retry interval, and again until it is
admitted or the throttler is stopped. `Queue` is a throttler together with the requests that wait
for their next attempt, at some time; `advance` lets time pass. Attempts that fall on one time are
made in the order in which they were scheduled, except that a request that is waited for (`acquire`)
goes first: when it is done, or the wait is given up, the others of that time are still to come.

Out of scope here: attempts that come late, or in another order.
`BookFeed.Proofs.Throttler.Interleaving` has calls side by side in every order.
-/

namespace BookFeed

/-- A request for admission. -/
structure Throttler.Request where
  path : String
  /-- when it was made -/
  since : Nat
deriving DecidableEq

/-- That a request has been admitted. -/
structure Throttler.Admission where
  path : String
  time : Nat
  /-- how long the request had to wait -/
  waited : Nat
  /-- the path has a limit -/
  throttled : Bool
deriving DecidableEq

open Throttler (Request Admission)

/-- A request's outcome at the time `now`, unless it has to wait on. -/
def Attempt.outcome? (now : Nat) (r : Request) : Attempt → Option (Except Halt Admission)
  | .admitted => some (.ok ⟨r.path, now, now - r.since, true⟩)
  | .unlimited => some (.ok ⟨r.path, now, now - r.since, false⟩)
  | .full => none
  | .cancelled => some (.error (.error .cancelled))
  | .overflow => some (.error .overflow)

/-- A throttler and the requests that wait for it. -/
structure Throttler.Queue where
  throttler : Throttler
  now : Nat := 0
  waiting : List (Timer Request) := []
  /-- the outcomes that nobody has collected yet, oldest first -/
  finished : List (Except Halt Admission) := []

namespace Throttler.Queue

/-- Makes an attempt for a request that may wait. -/
def submit (q : Queue) (r : Request) : Queue :=
  match q.throttler.attempt q.now r.path with
  | (throttler, a) =>
    match a.outcome? q.now r with
    | some outcome => { q with throttler, finished := q.finished ++ [outcome] }
    | none =>
      { q with throttler, waiting := Timer.insert ⟨q.now + throttler.retry, r⟩ q.waiting }

/-- Lets time pass until `target`: every attempt that is due by then is made. -/
def advance (q : Queue) (target : Nat) : Queue :=
  match _waits : q.waiting with
  | [] => { q with now := max q.now target }
  | w :: rest =>
    if _due : w.due ≤ target then
      let now := max q.now w.due
      match q.throttler.attempt now w.task.path with
      | (throttler, a) =>
        match a.outcome? now w.task with
        | some outcome =>
          ({ throttler, now, waiting := rest, finished := q.finished ++ [outcome] } : Queue).advance
            target
        | none =>
          ({ throttler, now, waiting := Timer.insert ⟨now + throttler.retry, w.task⟩ rest,
              finished := q.finished } : Queue).advance target
    else { q with now := max q.now target }
termination_by Timer.slack target q.waiting
decreasing_by
  · simp only [_waits, Timer.slack]; omega
  · have := throttler.retry_pos
    simp only [_waits, Timer.slack_insert, Timer.slack]
    omega

/-- Lets time pass until just before the attempts that are due at `time`. -/
def reach (q : Queue) (time : Nat) : Queue := { q.advance (time - 1) with now := time }

/-- Starts requests on a path. Each makes its first attempt now. -/
def spawn (q : Queue) (path : String) : Nat → Queue
  | 0 => q.advance q.now
  | n + 1 => (q.spawn path n).submit ⟨path, (q.spawn path n).now⟩

/-- Waits for admission until `deadline` at most: attempts are made now and after each retry
interval, the last no later than the deadline. No outcome means that the wait was given up. -/
def acquireUntil (q : Queue) (r : Request) (deadline : Nat) :
    Queue × Option (Except Halt Admission) :=
  match q.throttler.attempt q.now r.path with
  | (throttler, a) =>
    let q' := { q with throttler }
    match a.outcome? q.now r with
    | some outcome => (q', some outcome)
    | none =>
      let next := q.now + throttler.retry
      if next ≤ deadline then (q'.reach next).acquireUntil r deadline
      else (q'.reach deadline, none)
termination_by deadline + 1 - q.now
decreasing_by
  have := throttler.retry_pos
  simp only [reach]
  omega

/-- A request on a path, made now, that waits at most so long. -/
def acquire (q : Queue) (path : String) (maxWait : Nat) :
    Queue × Option (Except Halt Admission) :=
  q.acquireUntil ⟨path, q.now⟩ (q.now + maxWait)

/-- Takes the outcomes that have not been collected yet. -/
def collect (q : Queue) : Queue × List (Except Halt Admission) :=
  ({ q with finished := [] }, q.finished)

end Throttler.Queue

end BookFeed
