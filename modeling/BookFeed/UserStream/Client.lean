import BookFeed.Text.Utf8
import BookFeed.UserStream.Connection

/-!
# Clients of user streams

A client is connected or not. While it is, it receives what arrives on the connection, frame by
frame. Data frames are texts for its user; a ping is answered; a close frame, a failure and the end
of the connection disconnect it.

What will arrive is part of the client, and so is how long each arrival keeps it waiting and whether
what the client sends meanwhile gets through.

Out of scope: encryption, the handshake beyond whether it succeeds, and how frames are put together
from what is transmitted.
-/

namespace BookFeed

/-- A frame from the other side. -/
inductive Frame where
  | text (text : String)
  | binary (bytes : List UInt8)
  | ping (bytes : List UInt8)
  | pong (bytes : List UInt8)
  /-- a frame that is handed on as it stands -/
  | raw (bytes : List UInt8)
  | close
deriving DecidableEq

/-- What comes from a connection. -/
inductive Incoming where
  | frame (frame : Frame)
  /-- the connection breaks -/
  | failure (detail : String)
  | ended
deriving DecidableEq

/-- Something that comes from a connection, and the time before it. -/
structure Arrival where
  incoming : Incoming
  /-- for how long nothing has come before it, in milliseconds -/
  silence : Nat := 0
  /-- whether a frame that is sent when it has been silent for so long gets through -/
  writable : Nat → Bool := fun _ => true
  /-- somebody is there to read the events of the stream -/
  awaited : Bool := true

/-- What is left of an arrival when some of the silence before it is over. -/
def Arrival.after (a : Arrival) (span : Nat) : Arrival :=
  { a with silence := a.silence - span, writable := fun time => a.writable (time + span) }

/-- What comes of dialling an address. -/
structure Dial where
  /-- what arrives from the other side before the connection ends, if it accepts, and otherwise why
  it does not -/
  answer : Except String (List Arrival)
  /-- why nothing can be sent when the other side has accepted, if that is so -/
  fault : Option String := none
  /-- how long it takes, in milliseconds -/
  lag : Nat := 0

def Dial.accepted (arrivals : List Arrival) : Dial := { answer := .ok arrivals }

def Dial.refused (detail : String) : Dial := { answer := .error detail }

/-- A frame to the other side. -/
inductive Sent where
  | text (text : String)
  | ping
  | pong (bytes : List UInt8)
  | close
deriving DecidableEq

/-- A client of a user stream. -/
structure StreamClient where
  connection : Connection
  /-- what is still to arrive, while the client is connected -/
  arrivals : Option (List Arrival) := none
  /-- all frames that the client has sent, oldest first -/
  sent : List Sent := []

namespace StreamClient

def isConnected (c : StreamClient) : Bool := c.arrivals.isSome

def send (c : StreamClient) (s : Sent) : StreamClient := { c with sent := c.sent ++ [s] }

/-- The frames that subscribe to the stream, if any. -/
def greeting (c : StreamClient) : List Sent :=
  (c.connection.subscription.map fun m => Sent.text m.toText).toList

/-- Connects and subscribes. -/
def connect (c : StreamClient) (dial : Dial) : StreamClient × Except Error Unit :=
  match dial.answer with
  | .error detail => (c, .error (.webSocket ("Failed to connect: " ++ detail)))
  | .ok arrivals =>
    match c.connection.subscription, dial.fault with
    | some _, some detail => (c, .error (.webSocket detail))
    | _, _ => ({ c with arrivals := some arrivals, sent := c.sent ++ c.greeting }, .ok ())

/-- Ends the connection because of an error. -/
def disconnect (c : StreamClient) (detail : String) :
    StreamClient × Except Error (Option String) :=
  ({ c with arrivals := none }, .error (.webSocket detail))

/-- What arrives next. A connection from which nothing more comes has come to its end. -/
def next (c : StreamClient) : Arrival := (c.arrivals.getD []).headD { incoming := .ended }

/-- Receives the text of the next frame, if it has one. -/
def receive (c : StreamClient) : StreamClient × Except Error (Option String) :=
  match c.arrivals with
  | none => (c, .error (.webSocket "Not connected"))
  | some arrivals =>
    let rest : StreamClient := { c with arrivals := some arrivals.tail }
    match c.next.incoming with
    | .frame (.text text) => (rest, .ok (some text))
    | .frame (.binary bytes) => (rest, .ok (some (Text.Utf8.decode bytes)))
    | .frame (.ping bytes) =>
      (if c.next.writable c.next.silence then rest.send (.pong bytes) else rest, .ok none)
    | .frame (.pong _) | .frame (.raw _) => (rest, .ok none)
    | .frame .close => c.disconnect "Connection closed"
    | .failure detail => c.disconnect detail
    | .ended => c.disconnect "Stream ended"

/-- Lets some of the silence before the next arrival pass. -/
def wait (c : StreamClient) (span : Nat) : StreamClient :=
  { c with arrivals := c.arrivals.map fun
      | [] => []
      | a :: rest => a.after span :: rest }

/-- Sends a ping, if the client is connected. -/
def ping (c : StreamClient) : StreamClient := if c.isConnected then c.send .ping else c

/-- Ends the connection, if there is one. -/
def close (c : StreamClient) : StreamClient :=
  if c.isConnected then { c.send .close with arrivals := none } else c

/-! ## What is still to come -/

/-- A bound for what is still to be received and waited for. -/
def pending (c : StreamClient) : Nat :=
  (c.arrivals.getD []).foldr (fun a bound => a.silence + 1 + bound) 0

@[simp] theorem pending_send (c : StreamClient) (s : Sent) : (c.send s).pending = c.pending := rfl

@[simp] theorem pending_ping (c : StreamClient) : c.ping.pending = c.pending := by
  unfold ping
  split <;> rfl

theorem pending_wait_le (c : StreamClient) (span : Nat) : (c.wait span).pending ≤ c.pending := by
  unfold wait pending
  match c.arrivals with
  | none | some [] => exact Nat.le_refl _
  | some (a :: rest) => simp [Arrival.after]

theorem pending_wait_lt {c : StreamClient} {span : Nat} (hpos : 0 < span)
    (h : span < c.next.silence) : (c.wait span).pending < c.pending := by
  unfold wait pending
  unfold next at h
  match hc : c.arrivals with
  | none | some [] => simp [hc] at h
  | some (a :: rest) =>
    simp only [hc, Option.getD_some, List.headD_cons] at h
    simp only [Option.map_some, Option.getD_some, List.foldr_cons, Arrival.after]
    omega

/-- Unless it fails, receiving takes what arrives next. -/
theorem pending_receive {c c' : StreamClient} {text : Option String}
    (h : c.receive = (c', .ok text)) : c'.pending < c.pending := by
  unfold receive disconnect at h
  match hc : c.arrivals with
  | none => simp [hc] at h
  | some [] => simp [hc, next] at h
  | some (a :: rest) =>
    have htaken : (({ c with arrivals := some rest } : StreamClient).pending) < c.pending := by
      simp only [pending, hc, Option.getD_some, List.foldr_cons]
      omega
    simp only [hc, List.tail_cons] at h
    split at h <;> simp only [Prod.mk.injEq, reduceCtorEq, and_false] at h <;> obtain ⟨rfl, -⟩ := h
    any_goals exact htaken
    split
    · exact htaken
    · exact htaken

end StreamClient

end BookFeed
