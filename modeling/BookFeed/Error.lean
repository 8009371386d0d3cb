/-!
# What can go wrong

The causes of failure across the library, their wording (`Error.message`) and how the component that
meets one deals with it (`Error.kind`).
-/

namespace BookFeed

/-- How a failure is dealt with. -/
inductive ErrorKind where
  /-- announced, and tried again after a pause -/
  | transient
  /-- raised while something is set up, never tried again -/
  | configuration
  /-- a malformed message, rejected before any book has changed -/
  | protocol
  /-- a requested end, always passed on -/
  | cancelled
deriving DecidableEq, Repr

/-- A cause of failure. -/
inductive Error where
  | webSocket (detail : String)
  | restApi (detail : String)
  | parse (detail : String)
  | orderBook (detail : String)
  | connectionTimeout
  | channelClosed (channel : String)
  | config (detail : String)
  | unsupportedDataSource (name : String)
  | missingArgument (name : String)
  | invalidRateLimit (path reason : String)
  | missingTimestamp (pair : String)
  | invalidMessage (detail : String)
  | cancelled
deriving DecidableEq, Repr

namespace Error

def message : Error → String
  | webSocket detail => "WebSocket connection error: " ++ detail
  | restApi detail => "REST API error: " ++ detail
  | parse detail => "Failed to parse message: " ++ detail
  | orderBook detail => "Order book error: " ++ detail
  | connectionTimeout => "Connection timeout"
  | channelClosed channel => "Channel closed: " ++ channel
  | config detail => "Configuration error: " ++ detail
  | unsupportedDataSource name => "Data source type " ++ name ++ " is not supported"
  | missingArgument name => "Missing required argument: " ++ name
  | invalidRateLimit path reason => "Invalid rate limit for " ++ path ++ ": " ++ reason
  | missingTimestamp pair => "Snapshot message for " ++ pair ++ " has no explicit timestamp"
  | invalidMessage detail => "Invalid message: " ++ detail
  | cancelled => "Operation cancelled"

def kind : Error → ErrorKind
  | webSocket _ | restApi _ | parse _ | orderBook _ | connectionTimeout | channelClosed _ =>
    .transient
  | config _ | unsupportedDataSource _ | missingArgument _ | invalidRateLimit _ _ => .configuration
  | missingTimestamp _ | invalidMessage _ => .protocol
  | cancelled => .cancelled

def isTransient (e : Error) : Bool := decide (e.kind = .transient)

end Error

/-- Why a computation has no result: a cause that its caller can deal with, or a number that left
its range, which ends the computation where it stands. -/
inductive Halt where
  | error (e : Error)
  | overflow
deriving DecidableEq, Repr

/-- A computation that gives a result has given one at each step. -/
theorem bind_eq_ok {ε α β : Type} {x : Except ε α} {f : α → Except ε β} {b : β}
    (h : x >>= f = .ok b) : ∃ a, x = .ok a ∧ f a = .ok b := by
  cases x with
  | error e => exact absurd h (by simp [bind, Except.bind])
  | ok a => exact ⟨a, rfl, h⟩

end BookFeed
