import BookFeed.Tracker.Step

/-!
# How the tasks of a tracker take turns

The task at the head of the line does its steps until it pauses or has nothing to do; then it is the
next task's turn (`settle`). Only when no task is in line does time pass, to when the next pause is
over (`advance`).

Out of scope here: tasks that run at the same time, or in another order.
`BookFeed.Proofs.Tracker.Interleaving` lets them take turns in every order.
-/

namespace BookFeed

namespace Tracker

/-- More requests than a peer is sent at one time. -/
def requestBound : Nat := 1 <<< 62

/-- The steps that there may be before no task is in line, counted from above. -/
def load (t : Tracker) : Nat :=
  let source := match t.source with
    | .feed f => 6 * f.queue.length
    | .polled _ _ => if t.listening then requestBound else 0
  let router := t.router.elim 0 fun r => 4 * r.queue.length + 1
  let pairs := t.pairs.foldl (fun n (_, task) => n + 2 * task.inbox.size + task.recovering.toNat) 0
  t.schedule.ready.length + source + 2 * t.listening.toNat + router + pairs

/-- Lets the tasks in line do at most so many steps. -/
def run (t : Tracker) : Nat → Tracker
  | 0 => t
  | n + 1 =>
    match t.schedule.ready with
    | [] => t
    | name :: _ =>
      match t.step? name with
      | some t => t.run n
      | none => ({ t with schedule := t.schedule.yield } : Tracker).run n

/-- Lets the tasks run until none is in line. -/
def settle (t : Tracker) : Tracker := t.run t.load

/-- Lets time pass until `target`. What is due by then is done. -/
def advance (t : Tracker) (target : Nat) : Tracker :=
  let settled := t.settle
  let rest := { settled with schedule := { settled.schedule with now := max t.now target } }
  match settled.schedule.nextDue? with
  | none => rest
  | some due =>
    if _due : t.now < due ∧ due ≤ target then
      ({ settled with schedule := settled.schedule.jump due } : Tracker).advance target
    else rest
termination_by target - t.now
decreasing_by
  simp only [now, Schedule.jump] at *
  omega

end Tracker

end BookFeed
