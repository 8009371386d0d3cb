import BookFeed.Message.Basic

/-!
# Streams of trades

The trades applied to any book go to a stream, which whoever asks first may take. They wait in it
until they are read, also before anybody has taken it. A stream that was taken and dropped receives
nothing more.
-/

namespace BookFeed

/-- The trades that nobody has read yet. -/
structure TradeStream where
  /-- oldest first -/
  queue : List Message := []
  taken : Bool := false
  dropped : Bool := false

namespace TradeStream

def send (s : TradeStream) (m : Message) : TradeStream :=
  if s.dropped then s else { s with queue := s.queue ++ [m] }

/-- Takes the stream, and tells whether it was still there. -/
def take (s : TradeStream) : TradeStream × Bool := ({ s with taken := true }, !s.taken)

/-- Drops the stream, if it was taken. -/
def drop (s : TradeStream) : TradeStream :=
  if s.taken then { s with queue := [], dropped := true } else s

/-- Whoever took the stream reads what is in it. -/
def read (s : TradeStream) : TradeStream × List Message :=
  if s.taken then ({ s with queue := [] }, s.queue) else (s, [])

end TradeStream

end BookFeed
