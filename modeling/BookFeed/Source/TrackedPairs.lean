import BookFeed.Sorted

/-!
# Tracked pairs

The set of trading pairs that a tracker and its source follow, listed in order.
-/

namespace BookFeed

/-- A set of pairs. -/
structure TrackedPairs where
  /-- each pair once, in order -/
  pairs : List String := []
deriving DecidableEq

namespace TrackedPairs

def ofList (pairs : List String) : TrackedPairs :=
  ⟨pairs.foldl (fun ps p => Sorted.insertKey compare p ps) []⟩

def contains (t : TrackedPairs) (pair : String) : Bool := t.pairs.contains pair

/-- The pairs of `t` that are not in `u`. -/
def without (t u : TrackedPairs) : List String := t.pairs.filter (!u.contains ·)

/-- What replacing a set by another does. -/
structure Change where
  added : List String
  removed : List String
deriving DecidableEq

/-- Puts other pairs in the place of `t`. -/
def replace (t : TrackedPairs) (pairs : List String) : TrackedPairs × Change :=
  let next := ofList pairs
  (next, ⟨next.without t, t.without next⟩)

end TrackedPairs

end BookFeed
