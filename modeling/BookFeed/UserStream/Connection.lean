import BookFeed.Error
import BookFeed.Json.Value
import BookFeed.Text.Blank

/-!
# Connections of user streams

Where a user stream is found and how it is subscribed to, and how long to wait before a connection
that failed is tried again.
-/

namespace BookFeed

/-- An endpoint and the subscription to send there. -/
structure Connection where
  url : String
  subscription : Option Json.Value := none

namespace Connection

/-- A connection to an address, which must not be blank. -/
def new (url : String) : Except Error Connection :=
  if Text.isAllBlank url then .error (.missingArgument "user_stream_url")
  else .ok { url := Text.trim url }

def subscribe (c : Connection) (message : Json.Value) : Connection :=
  { c with subscription := some message }

end Connection

/-- The longest delay before a connection is tried again, in milliseconds. -/
def Reconnect.longest : Nat := 60000

/-- The delay in milliseconds after so many failures: twice as long after each of the first six, and
at most `longest`. -/
def Reconnect.delay (base attempt : Nat) : Nat := min (base <<< min attempt 6) Reconnect.longest

end BookFeed
