import BookFeed.Error

/-!
# Advisories

Faults that a component recovers from are announced to whoever has subscribed. The bus keeps the
latest advisories only: a subscriber who falls behind further than that learns how many it has lost
and goes on with the oldest one kept.

Out of scope: when an advisory was announced, and the log line that goes with it.
-/

namespace BookFeed

/-- The announcement of a fault. -/
structure Advisory where
  component : String
  message : String
  error : String
deriving DecidableEq, Repr

/-- A bus and everything announced on it. -/
structure AdvisoryBus where
  /-- how many advisories are kept -/
  capacity : Nat
  /-- all advisories, oldest first -/
  sent : List Advisory := []

/-- How far a subscriber has read. -/
structure Subscription where
  position : Nat
deriving DecidableEq

namespace AdvisoryBus

/-- A bus that keeps `capacity` advisories, rounded up to a power of two. -/
def new (capacity : Nat) : AdvisoryBus := { capacity := (max 1 capacity).nextPowerOfTwo }

/-- A subscription to what is announced from now on. -/
def subscribe (b : AdvisoryBus) : Subscription := ⟨b.sent.length⟩

/-- Announces a fault. -/
def announce (b : AdvisoryBus) (component : String) (e : Error) (message : String) : AdvisoryBus :=
  { b with sent := b.sent ++ [⟨component, message, e.message⟩] }

/-- How many advisories have gone that the subscriber has not read. -/
def lost (b : AdvisoryBus) (s : Subscription) : Nat := b.sent.length - b.capacity - s.position

/-- What the subscriber has not read of what is kept. -/
def unread (b : AdvisoryBus) (s : Subscription) : List Advisory :=
  b.sent.drop (s.position + b.lost s)

end AdvisoryBus

end BookFeed
