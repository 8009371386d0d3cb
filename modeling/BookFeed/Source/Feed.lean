import BookFeed.Message.Frame

/-!
# Feeds

A feed hands messages from producers inside the process to a listener. Messages wait in the feed as
long as nobody listens. A feed that has been closed ends once its messages have been taken.
-/

namespace BookFeed

/-- Messages on their way to a listener. -/
structure Feed where
  /-- the messages that wait, oldest first -/
  queue : List Message := []
  /-- nothing more is sent -/
  closed : Bool := false

namespace Feed

def send (f : Feed) (m : Message) : Feed := { f with queue := f.queue ++ [m] }

/-- Sends the message of a frame received at the time `now`. -/
def sendFrame (now : Binary64) (f : Feed) (raw : String) : Except Error Feed :=
  (Message.parse now raw).map f.send

def close (f : Feed) : Feed := { f with closed := true }

/-- Listens to a closed feed until its end. The messages go to a receiver, which may be gone: then
the first message is an error. -/
def listen (f : Feed) (receiver : Bool) : List Message × Except Error Unit :=
  match f.queue with
  | [] => ([], .ok ())
  | m :: rest =>
    if receiver then (m :: rest, .ok ()) else ([], .error (.channelClosed "order book input"))

end Feed

end BookFeed
