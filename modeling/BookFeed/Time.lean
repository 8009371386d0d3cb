/-!
# Times and timers

Durations, and times since the beginning, are whole numbers of nanoseconds. What is to happen later
is kept as a list of timers in the order in which they go off: `Timer.insert` puts a timer behind
those that are due no later than it, so timers of one time go off in the order in which they were
set.
-/

namespace BookFeed

/-- So many milliseconds. -/
def Nanos.ofMillis (n : Nat) : Nat := n * 1000000

/-- So many seconds. -/
def Nanos.ofSeconds (n : Nat) : Nat := n * 1000000000

/-- The whole milliseconds of a duration. -/
def Nanos.toMillis (n : Nat) : Nat := n / 1000000

/-- The whole seconds of a duration. -/
def Nanos.toSeconds (n : Nat) : Nat := n / 1000000000

/-- A task that is due at some time. -/
structure Timer (α : Type) where
  due : Nat
  task : α
deriving DecidableEq

namespace Timer

variable {α : Type}

/-- Sets a timer. -/
def insert (x : Timer α) : List (Timer α) → List (Timer α)
  | [] => [x]
  | y :: ys => if y.due ≤ x.due then y :: insert x ys else x :: y :: ys

/-- How far the timers are from going off only after `target`, added up. A timer that goes off by
then and is set again for later brings this down. -/
def slack (target : Nat) : List (Timer α) → Nat
  | [] => 0
  | y :: ys => (target + 1 - y.due) + slack target ys

theorem slack_insert (target : Nat) (x : Timer α) (ts : List (Timer α)) :
    slack target (insert x ts) = (target + 1 - x.due) + slack target ts := by
  induction ts with
  | nil => rfl
  | cons y ys ih =>
    rw [insert]
    split
    · simp only [slack, ih]; omega
    · rfl

end Timer

end BookFeed
