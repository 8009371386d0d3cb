import BookFeed.Synchronizer
import BookFeed.Time

/-!
# Settings of a tracker
-/

namespace BookFeed

/-- How a tracker works. -/
structure Tracker.Settings where
  /-- how many diffs each synchronizer keeps -/
  window : Nat := Synchronizer.defaultCapacity
  /-- how many saved messages of a pair may wait -/
  backlog : Nat := 1000
  /-- the pause after a failure -/
  backoff : Nat := Nanos.ofSeconds 5
  /-- the time from one report to the next -/
  report : Nat := Nanos.ofSeconds 60
deriving DecidableEq

end BookFeed
