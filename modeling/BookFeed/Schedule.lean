import BookFeed.Time

/-!
# Schedules of tasks

Tasks take turns. A task that can run is in line (`ready`); a task that pauses has a timer and is
not called up before it goes off, whatever happens meanwhile. `jump` moves the clock to a later time
and puts the tasks whose timers have gone off at the end of the line, in the order in which the
timers were due.
-/

namespace BookFeed

/-- A clock, the tasks in line and the tasks that pause. -/
structure Schedule (α : Type) where
  now : Nat := 0
  timers : List (Timer α) := []
  /-- the tasks that can run, the next first -/
  ready : List α := []

namespace Schedule

variable {α : Type} [DecidableEq α]

/-- The task pauses. -/
def isAsleep (s : Schedule α) (a : α) : Bool := s.timers.any (·.task = a)

/-- Puts a task in line, unless it is there already or pauses. -/
def wake (s : Schedule α) (a : α) : Schedule α :=
  if a ∈ s.ready ∨ s.isAsleep a then s else { s with ready := s.ready ++ [a] }

/-- Lets a task pause for some time, if any. -/
def pause (s : Schedule α) (a : α) (span : Nat) : Schedule α :=
  if span = 0 then s else { s with timers := Timer.insert ⟨s.now + span, a⟩ s.timers }

/-- Takes the task whose turn it is out of the line. -/
def yield (s : Schedule α) : Schedule α := { s with ready := s.ready.tail }

/-- Forgets a task. -/
def cancel (s : Schedule α) (a : α) : Schedule α :=
  { s with timers := s.timers.filter (·.task ≠ a), ready := s.ready.filter (· ≠ a) }

/-- Forgets the tasks that are gone. -/
def cancelAll (s : Schedule α) (gone : α → Bool) : Schedule α :=
  { s with timers := s.timers.filter (!gone ·.task), ready := s.ready.filter (!gone ·) }

/-- Forgets all tasks. -/
def clear (s : Schedule α) : Schedule α := { s with timers := [], ready := [] }

/-- When the next timer goes off. -/
def nextDue? (s : Schedule α) : Option Nat := s.timers.head?.map (·.due)

/-- Moves the clock, and wakes the tasks whose pause is over. -/
def jump (s : Schedule α) (time : Nat) : Schedule α :=
  { now := time
    timers := s.timers.dropWhile (·.due ≤ time)
    ready := s.ready ++ (s.timers.takeWhile (·.due ≤ time)).map (·.task) }

end Schedule

end BookFeed
