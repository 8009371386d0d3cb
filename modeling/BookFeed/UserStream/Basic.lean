import BookFeed.Counters
import BookFeed.Json.Value
import BookFeed.Error

/-!
# User streams

A user stream hands the private events of an exchange to whoever reads them. A listener moves the
payloads from a feed to the queue of events; there is one at most, which can be stopped and started
again. What the listener has not taken stays in the feed, and what it has queued stays readable.

The listener works only when the others wait: `step?` is one thing it does, and `settle` lets it do
everything that is to be done.

Out of scope here: a listener that goes on after it was told to stop, next to the one that was
started in its place. `BookFeed.Proofs.UserStream.Listeners` has them task by task.
-/

namespace BookFeed

/-- The listener of a user stream. -/
inductive StreamListener where
  | listening
  /-- the feed has come to its end -/
  | finished
deriving DecidableEq, Repr

/-- A user stream that is fed inside the process. -/
structure UserStream where
  exchange : String
  /-- the payloads that no listener has taken, oldest first -/
  feed : List Json.Value := []
  /-- nothing more is sent -/
  closed : Bool := false
  listener : Option StreamListener := none
  /-- a listener was stopped and has not let go of the feed yet -/
  leaving : Bool := false
  /-- the stream has been dropped: only a listener that has not gone yet holds the feed -/
  dropped : Bool := false
  /-- the events that nobody has read, oldest first -/
  events : List Json.Value := []
  /-- there has been an event -/
  received : Bool := false
  counters : Counters := {}

namespace UserStream

/-- Stops the listener. -/
def stop (u : UserStream) : UserStream :=
  { u with listener := none, leaving := u.leaving || u.listener == some .listening }

/-- Starts a listener in the place of the one there is. -/
def start (u : UserStream) : UserStream :=
  { u.stop with
    listener := some .listening
    counters := u.counters.increment (.restarts u.exchange) }

def isRunning (u : UserStream) : Bool := u.listener == some .listening

/-- How often a listener was started. -/
def restarts (u : UserStream) : Nat := u.counters.get (.restarts u.exchange)

/-- Gives the stream up, its listener included. -/
def drop (u : UserStream) : UserStream := { u.stop with dropped := true }

/-- Sends a payload. -/
def send (u : UserStream) (payload : Json.Value) : Except Error UserStream :=
  if u.dropped ∧ ¬ u.leaving then .error (.channelClosed "user stream feed")
  else .ok { u with feed := u.feed ++ [payload] }

def closeFeed (u : UserStream) : UserStream := { u with closed := true }

/-- The listener takes a payload, or finds the end of the feed. -/
def step? (u : UserStream) : Option UserStream :=
  match u.listener, u.feed with
  | some .listening, payload :: feed =>
    some { u with feed, events := u.events ++ [payload], received := true }
  | some .listening, [] => if u.closed then some { u with listener := some .finished } else none
  | _, _ => none

/-- The listener does at most so many steps. -/
def run (u : UserStream) : Nat → UserStream
  | 0 => u
  | n + 1 => match u.step? with
    | some u => u.run n
    | none => u

/-- Lets the listener do what is to be done, after listeners that were stopped have gone. -/
def settle (u : UserStream) : UserStream := ({ u with leaving := false } : UserStream).run
  (u.feed.length + 1)

/-- Reads an event, if there is one. -/
def next? (u : UserStream) : UserStream × Option Json.Value :=
  match u.events with
  | [] => (u, none)
  | event :: events => ({ u with events }, some event)

/-- Waits for an event. The listener works only if there is none yet and time to wait. -/
def await (u : UserStream) (patience : Nat) : UserStream × Option Json.Value :=
  if u.events.isEmpty ∧ 0 < patience then u.settle.next? else u.next?

end UserStream

end BookFeed
