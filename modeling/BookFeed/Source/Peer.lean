import BookFeed.Message.Frame
import BookFeed.Text.Urlencoded

/-!
# Requests for snapshots and their replies

A snapshot is requested from a peer, which answers or fails to. `Reply.message` reads a reply: it
brings a message only if its status is no error, its body can be read, and the message is one of the
pair that was asked for.

Out of scope: how a request travels and how long it takes, so also that it is given up after some
time. That is a `Reply.failure` like any other, and its text is whatever the transport says.
-/

namespace BookFeed

/-- A request for the snapshot of a pair. -/
structure SnapshotRequest where
  url : String
  pair : String
deriving DecidableEq

/-- The address with the pair in its query. -/
def SnapshotRequest.target (r : SnapshotRequest) : String :=
  r.url ++ (if r.url.toList.contains '?' then "&" else "?") ++ "trading_pair=" ++
    Text.Urlencoded.encode r.pair

/-- What comes of a request. -/
inductive Reply where
  | response (status : Nat) (body : String)
  /-- there is no response -/
  | failure (detail : String)
deriving DecidableEq

/-- The message that a reply to a request for `pair` brings at the time `now`. -/
def Reply.message (now : Binary64) (pair : String) : Reply → Except Error Message
  | failure detail => .error (.restApi detail)
  | response status body =>
    if 400 ≤ status ∧ status < 600 then .error (.restApi ("status " ++ toString status))
    else do
      let m ← Message.parse now body
      if m.pair = pair then return m
      else .error (.invalidMessage ("requested " ++ pair ++ " snapshot, received " ++ m.pair))

/-- Who answers requests. -/
structure Peer where
  /-- the replies to the next requests -/
  replies : List Reply := []
  /-- the reply to every request after these -/
  fallback : Reply
  /-- the requests that have had a response, oldest first -/
  answered : List SnapshotRequest := []

namespace Peer

/-- A peer that cannot be reached. -/
def unreachable : Peer := { fallback := .failure "error sending request" }

/-- A peer that gives these replies, and after them the status 500. -/
def scripted (replies : List Reply) : Peer := { replies, fallback := .response 500 "" }

/-- Makes a request. -/
def ask (p : Peer) (r : SnapshotRequest) : Peer × Reply :=
  let reply := p.replies.headD p.fallback
  ({ p with
      replies := p.replies.tail
      answered := match reply with
        | .response _ _ => p.answered ++ [r]
        | .failure _ => p.answered },
    reply)

end Peer

end BookFeed
