import BookFeed.Source.Peer
import BookFeed.Text.Blank
import BookFeed.Throttler.Queue

/-!
# Polling for snapshots

A polled source asks an endpoint for the snapshot of every tracked pair, round after round. Each
request first waits for admission by a throttler, under the path `/snapshot`.

`Polling` is how far a listener is in this. `PolledSource.poll` does the next thing that is to be
done, so that a listener can be interrupted anywhere. The rounds are due at the beginning and after
each interval: a round that is late does not delay those after it.

Out of scope: time that passes between a request and its reply.
-/

namespace BookFeed

/-- A source that is polled for snapshots. -/
structure PolledSource where
  endpoint : String
  /-- the time from one round to the next -/
  interval : Nat
  interval_pos : 0 < interval
  throttler : Throttler
  peer : Peer

/-- How far a listener is in polling. -/
structure Polling where
  /-- when the next round is due -/
  next : Nat
  /-- the pairs of this round that are still to be fetched -/
  round : List String := []

/-- What an attempt to fetch a snapshot comes to. -/
inductive Fetch where
  | fetched (m : Message)
  /-- there is no room for the request now -/
  | full
  | failed (h : Halt)

/-- What the next thing that is to be done in polling comes to. -/
inductive Polled where
  /-- a round has begun -/
  | begun
  | forwarded (m : Message)
  /-- there is nothing to be done for so long -/
  | waiting (span : Nat)
  | failed (h : Halt)

/-- The path under which requests for snapshots are throttled. -/
def snapshotPath : String := "/snapshot"

namespace PolledSource

/-- The text without the slashes at its end. -/
def dropSlashes (s : String) : String :=
  String.ofList (s.toList.reverse.dropWhile (· == '/')).reverse

def new (endpoint : String) (interval : Nat) (throttler : Throttler) (peer : Peer) :
    Except Error PolledSource :=
  if Text.isAllBlank endpoint then .error (.missingArgument "rest_endpoint")
  else if h : 0 < interval then
    .ok { endpoint := dropSlashes endpoint, interval, interval_pos := h, throttler, peer }
  else .error (.config "snapshot poll interval must be positive")

/-- The request for the snapshot of a pair. -/
def request (s : PolledSource) (pair : String) : SnapshotRequest :=
  ⟨s.endpoint ++ snapshotPath, pair⟩

/-- Asks the peer for a snapshot. -/
def ask (s : PolledSource) (received : Binary64) (pair : String) :
    PolledSource × Except Error Message :=
  match s.peer.ask (s.request pair) with
  | (peer, reply) => ({ s with peer }, reply.message received pair)

/-- An attempt at the time `now` to fetch a snapshot, which is then received at `received`. -/
def fetch (s : PolledSource) (now : Nat) (received : Binary64) (pair : String) :
    PolledSource × Fetch :=
  match s.throttler.attempt now snapshotPath with
  | (throttler, .full) => ({ s with throttler }, .full)
  | (throttler, .cancelled) => ({ s with throttler }, .failed (.error .cancelled))
  | (throttler, .overflow) => ({ s with throttler }, .failed .overflow)
  | (throttler, .admitted) | (throttler, .unlimited) =>
    match ({ s with throttler } : PolledSource).ask received pair with
    | (s, .ok m) => (s, .fetched m)
    | (s, .error e) => (s, .failed (.error e))

/-- Does the next thing in polling `pairs`. -/
def poll (s : PolledSource) (pairs : List String) (now : Nat) (received : Binary64) (p : Polling) :
    PolledSource × Polling × Polled :=
  match p.round with
  | [] =>
    if p.next ≤ now then (s, ⟨p.next + s.interval, pairs⟩, .begun)
    else (s, p, .waiting (p.next - now))
  | pair :: rest =>
    match s.fetch now received pair with
    | (s, .fetched m) => (s, { p with round := rest }, .forwarded m)
    | (s, .full) => (s, p, .waiting s.throttler.retry)
    | (s, .failed h) => (s, p, .failed h)

/-- A round begins when it is due, and the next is due an interval later. -/
theorem poll_begun {s s' : PolledSource} {pairs : List String} {now : Nat} {received : Binary64}
    {p p' : Polling} (h : s.poll pairs now received p = (s', p', .begun)) :
    p.next ≤ now ∧ p.next < p'.next := by
  have := s.interval_pos
  unfold poll at h
  split at h
  · split at h
    · obtain ⟨-, rfl, -⟩ := h
      exact ⟨by assumption, by dsimp only; omega⟩
    · simp at h
  · split at h <;> simp at h

/-- A message that is forwarded is that of the first pair in the round, which leaves it. -/
theorem poll_forwarded {s s' : PolledSource} {pairs : List String} {now : Nat}
    {received : Binary64} {p p' : Polling} {m : Message}
    (h : s.poll pairs now received p = (s', p', .forwarded m)) :
    p'.next = p.next ∧ p.round.length = p'.round.length + 1 := by
  unfold poll at h
  split at h
  · split at h <;> simp at h
  · rename_i hr
    split at h <;> simp only [Prod.mk.injEq, Polled.forwarded.injEq, reduceCtorEq, and_false] at h
    obtain ⟨-, rfl, -⟩ := h
    exact ⟨rfl, by rw [hr]; rfl⟩

theorem poll_waiting {s s' : PolledSource} {pairs : List String} {now span : Nat}
    {received : Binary64} {p p' : Polling}
    (h : s.poll pairs now received p = (s', p', .waiting span)) : 0 < span := by
  unfold poll at h
  split at h
  · split at h
    · simp at h
    · simp only [Prod.mk.injEq, Polled.waiting.injEq] at h
      omega
  · split at h <;> simp only [Prod.mk.injEq, Polled.waiting.injEq, reduceCtorEq, and_false] at h
    obtain ⟨-, -, rfl⟩ := h
    exact Throttler.retry_pos _

/-! ## Without a tracker -/

/-- Fetches a snapshot, waiting for admission until `deadline` at most. Answers the time at which it
is done, too. No outcome means that the wait was given up. -/
def fetchUntil (s : PolledSource) (clock : Nat → Binary64) (pair : String) (now deadline : Nat) :
    PolledSource × Nat × Option (Except Halt Message) :=
  match s.fetch now (clock now) pair with
  | (s, .fetched m) => (s, now, some (.ok m))
  | (s, .failed h) => (s, now, some (.error h))
  | (s, .full) =>
    if now + s.throttler.retry ≤ deadline then
      s.fetchUntil clock pair (now + s.throttler.retry) deadline
    else (s, deadline, none)
termination_by deadline + 1 - now
decreasing_by
  have := s.throttler.retry_pos
  omega

/-- Polls `pairs` until something fails, or until `deadline`. The messages go to a receiver, which
may be gone: then the first message is an error. Answers the messages, the time, and what failed. -/
def listenUntil (s : PolledSource) (clock : Nat → Binary64) (receiver : Bool) (pairs : List String)
    (p : Polling) (now deadline : Nat) : PolledSource × List Message × Nat × Option Halt :=
  match _polled : s.poll pairs now (clock now) p with
  | (s, p, .begun) => s.listenUntil clock receiver pairs p now deadline
  | (s, p, .forwarded m) =>
    if receiver then
      match s.listenUntil clock receiver pairs p now deadline with
      | (s, ms, rest) => (s, m :: ms, rest)
    else (s, [], now, some (.error (.channelClosed "order book input")))
  | (s, p, .waiting span) =>
    if now + span ≤ deadline then s.listenUntil clock receiver pairs p (now + span) deadline
    else (s, [], deadline, none)
  | (s, _, .failed h) => (s, [], now, some h)
termination_by (deadline + 1 - now, now + 1 - p.next, p.round.length)
decreasing_by
  · have := poll_begun _polled
    exact Prod.Lex.right _ (Prod.Lex.left _ _ (by omega))
  · obtain ⟨h, h'⟩ := poll_forwarded _polled
    rw [h, h']
    exact Prod.Lex.right _ (Prod.Lex.right _ (by omega))
  · have := poll_waiting _polled
    exact Prod.Lex.left _ _ (by omega)

end PolledSource

end BookFeed
