import BookFeed.Message.Basic
import BookFeed.Sorted

/-!
# Order books

The book of one pair: on each side the amounts by price, best price first, and the ids of the
updates that made it. A book changes only by being replaced with a snapshot (`applySnapshot`), by
having rows merged into it (`applyDiffs`) and by being emptied (`reset`); trades are only noted.

A price may be spelled in several ways. The book keeps the spelling under which the price came in.
-/

namespace BookFeed

/-- The order of the prices of a side: the better price comes first. -/
def Side.order : Side → Decimal → Decimal → Ordering
  | bid, p, q => q.compare p
  | ask, p, q => p.compare q

/-- The amounts on a side by price, best price first. -/
abbrev Ladder := List (Decimal × Decimal)

namespace Ladder

def get? (side : Side) (price : Decimal) (l : Ladder) : Option Decimal :=
  Sorted.get? side.order price l

/-- Puts in a row of a snapshot: only positive amounts make a level. -/
def fill (side : Side) (l : Ladder) (row : Row) : Ladder :=
  if row.amount.isPositive then Sorted.insert side.order row.price row.amount l else l

/-- Merges a row: an amount that is not positive takes the level away. -/
def merge (side : Side) (l : Ladder) (row : Row) : Ladder :=
  if row.amount.isPositive then Sorted.insert side.order row.price row.amount l
  else Sorted.erase side.order row.price l

end Ladder

/-- The higher of two update ids is the least that is at least both. -/
instance lawfulOrderMaxWord : Std.LawfulOrderMax UInt64 where
  max_le_iff a b c := by
    show (if a ≤ b then b else a) ≤ c ↔ a ≤ c ∧ b ≤ c
    simp only [UInt64.le_iff_toNat_le]
    split <;> omega
  max_eq_or a b := by
    show (if a ≤ b then b else a) = a ∨ (if a ≤ b then b else a) = b
    split
    · exact .inr rfl
    · exact .inl rfl

/-- The book of a pair. -/
structure Book where
  pair : String
  bids : Ladder := []
  asks : Ladder := []
  /-- the update of the last snapshot -/
  snapshotId : UInt64 := 0
  /-- the update of the last diff -/
  diffId : UInt64 := 0
  /-- the highest update applied so far -/
  appliedId : UInt64 := 0
  /-- a snapshot has been applied since the last reset -/
  initialized : Bool := false
  /-- price and amount of the last trade -/
  lastTrade : Option (Decimal × Decimal) := none
deriving DecidableEq

namespace Book

/-- An empty book. -/
def empty (pair : String) : Book := { pair }

/-- Replaces both sides. -/
def applySnapshot (b : Book) (bids asks : List Row) (updateId : UInt64) : Book :=
  { b with
    bids := bids.foldl (Ladder.fill .bid) []
    asks := asks.foldl (Ladder.fill .ask) []
    snapshotId := updateId
    appliedId := max b.appliedId updateId
    initialized := true }

/-- Merges rows into both sides. -/
def applyDiffs (b : Book) (bids asks : List Row) (updateId : UInt64) : Book :=
  { b with
    bids := bids.foldl (Ladder.merge .bid) b.bids
    asks := asks.foldl (Ladder.merge .ask) b.asks
    diffId := updateId
    appliedId := max b.appliedId updateId }

/-- Drops every level. The ids are kept. -/
def reset (b : Book) : Book := { b with bids := [], asks := [], initialized := false }

/-- Notes a trade. -/
def applyTrade (b : Book) (t : Trade) : Book := { b with lastTrade := some (t.price, t.amount) }

def side (b : Book) : Side → Ladder
  | .bid => b.bids
  | .ask => b.asks

def amount? (b : Book) (side : Side) (price : Decimal) : Option Decimal :=
  (b.side side).get? side price

def bestBid? (b : Book) : Option Decimal := b.bids.head?.map (·.1)

def bestAsk? (b : Book) : Option Decimal := b.asks.head?.map (·.1)

end Book

end BookFeed
