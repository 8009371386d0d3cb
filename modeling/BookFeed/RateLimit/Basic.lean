import BookFeed.Time

/-!
# Rate limits

A rate limit bounds the weight of the requests on a path within any window of time. A path may be
linked to further limits, pools that it shares with other paths: a request on the path is charged to
each of them as well.
-/

namespace BookFeed

/-- Another limit that requests on a path are charged to. -/
structure LinkedLimit where
  path : String
  weight : UInt32
deriving DecidableEq, Repr

/-- The bound on the requests of a path. -/
structure RateLimit where
  path : String
  /-- the largest weight within a window -/
  limit : UInt32
  window : Nat
  /-- the weight of one request -/
  weight : UInt32 := 1
  /-- how much longer than the window a request counts, if not as long as for all limits -/
  margin : Option Nat := none
  linked : List LinkedLimit := []
deriving DecidableEq, Repr

end BookFeed
