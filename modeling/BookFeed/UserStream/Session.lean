import BookFeed.UserStream.Client

/-!
# Sessions of a user stream

A session is what happens from one connection to its end: the client connects, and the JSON values
of the data frames become events. A frame that is no JSON text is dropped. A connection that has
been silent for a while is kept alive by pings, and given up when they do not get through. Every
session ends with an error, and after a delay the next one begins, unless nobody is there any more
to read the events.

Out of scope: log lines, and time that passes while something is sent.
-/

namespace BookFeed

/-- How long a frame is waited for before a ping is sent, in milliseconds. -/
def receiveTimeout : Nat := 45000

/-- How long there may be other frames only before a ping is sent, in milliseconds. -/
def keepaliveAfter : Nat := 30000

/-- How long ago the last connection has come about when earlier failures are forgotten, in
milliseconds. -/
def reconnectCooldown : Nat := 300000

/-- What has come of the sessions so far. -/
structure SessionLog where
  client : StreamClient
  /-- the values received, oldest first -/
  events : List Json.Value := []
  /-- a value has been received, read or not -/
  received : Bool := false
  /-- how many frames were no JSON text -/
  malformed : Nat := 0
  /-- for how long there has been no data frame on the connection, in milliseconds -/
  idle : Nat := 0
  /-- for how long the last connection has been there, its end included, in milliseconds -/
  age : Option Nat := none
  /-- the error after which no session follows -/
  halted : Option Error := none

namespace SessionLog

/-- Time passes. -/
def pass (log : SessionLog) (span : Nat) : SessionLog :=
  { log with
    client := log.client.wait span
    idle := log.idle + span
    age := log.age.map (· + span) }

/-- Hands a value to whoever reads the events. -/
def deliver (log : SessionLog) (value : Json.Value) (awaited : Bool) : SessionLog × Option Error :=
  if awaited then ({ log with received := true, events := log.events ++ [value] }, none)
  else ({ log with received := true }, some (.channelClosed "user stream output"))

/-- Takes the text of a data frame. -/
def take (log : SessionLog) (text : String) (awaited : Bool) : SessionLog × Option Error :=
  match Json.Value.read? text with
  | some value => ({ log with idle := 0 } : SessionLog).deliver value awaited
  | none => ({ log with idle := 0, malformed := log.malformed + 1 }, none)

/-- Sends a ping after a frame without data, if there has been no data for long. A ping that does
not get through is given up. -/
def keepAlive (log : SessionLog) (writable : Bool) : SessionLog :=
  if keepaliveAfter < log.idle ∧ writable then { log with client := log.client.ping } else log

/-- Receives what arrives next and deals with it. -/
def hear (log : SessionLog) (next : Arrival) : SessionLog × Option Error :=
  match log.client.receive with
  | (client, .error e) => ({ log with client }, some e)
  | (client, .ok none) =>
    (({ log with client } : SessionLog).keepAlive (next.writable next.silence), none)
  | (client, .ok (some text)) => ({ log with client } : SessionLog).take text next.awaited

/-- Waits for what arrives next, or sends a ping if nothing comes in time. -/
def turn (log : SessionLog) : SessionLog × Option Error :=
  let next := log.client.next
  if receiveTimeout < next.silence then
    let log := log.pass receiveTimeout
    if next.writable receiveTimeout then ({ log with client := log.client.ping }, none)
    else (log, some .connectionTimeout)
  else (log.pass next.silence).hear next

@[simp] theorem client_deliver (log : SessionLog) (value : Json.Value) (awaited : Bool) :
    (log.deliver value awaited).1.client = log.client := by
  unfold deliver
  split <;> rfl

@[simp] theorem client_take (log : SessionLog) (text : String) (awaited : Bool) :
    (log.take text awaited).1.client = log.client := by
  unfold take
  split <;> simp

@[simp] theorem pending_keepAlive (log : SessionLog) (writable : Bool) :
    (log.keepAlive writable).client.pending = log.client.pending := by
  unfold keepAlive
  split <;> simp

theorem pending_hear {log log' : SessionLog} {next : Arrival} (h : log.hear next = (log', none)) :
    log'.client.pending < log.client.pending := by
  unfold hear at h
  split at h <;> rename_i hreceived
  · simp at h
  · obtain ⟨rfl, -⟩ := Prod.mk.inj h
    simpa using StreamClient.pending_receive hreceived
  · obtain rfl := (congrArg Prod.fst h).symm
    simpa using StreamClient.pending_receive hreceived

/-- Unless it ends the session, a turn leaves less to come. -/
theorem pending_turn {log log' : SessionLog} (h : log.turn = (log', none)) :
    log'.client.pending < log.client.pending := by
  unfold turn at h
  dsimp only at h
  split at h
  case isTrue hsilent =>
    split at h <;> simp only [Prod.mk.injEq, reduceCtorEq, and_false, and_true] at h
    subst h
    simpa [pass] using StreamClient.pending_wait_lt (by decide) hsilent
  case isFalse =>
    exact Nat.lt_of_lt_of_le (pending_hear h) (StreamClient.pending_wait_le _ _)

/-- Receives frames up to the error that ends the session. -/
def receiveAll (log : SessionLog) : SessionLog × Error :=
  match _turned : log.turn with
  | (log, some e) => (log, e)
  | (log, none) => log.receiveAll
termination_by log.client.pending
decreasing_by exact pending_turn _turned

/-- A session over a connection, and the error that ended it. -/
def session (log : SessionLog) (dial : Dial) : SessionLog × Error :=
  match log.client.connect dial with
  | (client, .error e) => ({ log with client := client.close }, e)
  | (client, .ok _) =>
    match ({ log with client, idle := 0, age := some 0 } : SessionLog).receiveAll with
    | (log, e) => ({ log with client := log.client.close }, e)

end SessionLog

/-- The end of a session and the delay before the next. -/
structure SessionEnd where
  error : Error
  /-- in milliseconds -/
  delay : Nat
deriving DecidableEq

/-- How many failures still count when the next session begins. -/
def SessionLog.failures (log : SessionLog) (ended : Nat) : Nat :=
  if reconnectCooldown < log.age.getD 0 then 0 else ended

/-- Sessions over one connection after the other, with the delays between them growing from `base`.
So many sessions have ended before. -/
def SessionLog.sessions (log : SessionLog) (base ended : Nat) :
    List Dial → SessionLog × List SessionEnd
  | [] => (log, [])
  | dial :: dials =>
    match (log.pass dial.lag).session dial with
    | (after, .channelClosed channel) => ({ after with halted := some (.channelClosed channel) }, [])
    | (after, .cancelled) => ({ after with halted := some .cancelled }, [])
    | (after, error) =>
      let failed := log.failures ended + 1
      let delay := Reconnect.delay base failed
      match (after.pass delay).sessions base failed dials with
      | (log, ends) => (log, ⟨error, delay⟩ :: ends)

end BookFeed
