import BookFeed.Book.Basic
import BookFeed.Decimal.Arith

/-!
# Published book states

What consumers get of a book: the best levels of each side and figures on the whole book. The
figures are decimals, so they may be too large to be one; that is `Overflow`, and then there is no
state.
-/

namespace BookFeed

/-- A figure is too large for a decimal. -/
structure Overflow where
deriving DecidableEq, Repr

/-- A figure, unless it is too large. -/
abbrev Checked (α : Type) := Except Overflow α

def Checked.of {α : Type} : Option α → Checked α
  | some a => .ok a
  | none => .error ⟨⟩

/-- A level of a published state. -/
structure Level where
  price : Decimal
  quantity : Decimal
deriving DecidableEq

/-- The figures of a book. -/
structure BookMetrics where
  /-- the mean of the best prices -/
  midPrice : Option Decimal
  /-- the gap between the best prices, in hundredths of a percent of the mid price -/
  spreadBps : Option Decimal
  /-- the excess of bids over asks among the best five levels, as a share of both -/
  imbalance : Option Decimal
  lastTradePrice : Option Decimal
  /-- the total amount of the bids -/
  bidDepth : Decimal
  /-- the total amount of the asks -/
  askDepth : Decimal
  bidLevels : Nat
  askLevels : Nat
deriving DecidableEq

/-- Both sides are there and do not cross. -/
def BookMetrics.isHealthy (m : BookMetrics) : Bool :=
  m.midPrice.isSome && decide (0 < m.bidLevels) && decide (0 < m.askLevels) &&
    m.spreadBps.any (·.isNonneg)

/-- What consumers get of a book. -/
structure BookState where
  pair : String
  snapshotId : UInt64
  lastUpdateId : UInt64
  bids : List Level
  asks : List Level
  metrics : BookMetrics
deriving DecidableEq

namespace Book

def two : Decimal := .ofNat 2

def tenThousand : Decimal := .ofNat 10000

/-- The mean of the best prices. -/
def midPrice (b : Book) : Checked (Option Decimal) :=
  match b.bestBid?, b.bestAsk? with
  | some bid, some ask => do
    let sum ← .of (bid.add? ask)
    let mid ← Checked.of (sum.div? two)
    return some mid
  | _, _ => .ok none

/-- The gap between the best prices relative to a positive mid price. -/
def spreadBps (b : Book) : Checked (Option Decimal) := do
  match b.bestBid?, b.bestAsk?, ← b.midPrice with
  | some bid, some ask, some mid =>
    if mid.isPositive then
      let gap ← .of (ask.sub? bid)
      let share ← .of (gap.div? mid)
      let bps ← Checked.of (share.mul? tenThousand)
      return some bps
    else return none
  | _, _, _ => return none

/-- The total amount of the best `levels` levels. -/
def volume (levels : Nat) (l : Ladder) : Checked Decimal :=
  .of (Decimal.sum? ((l.take levels).map (·.2)))

/-- The excess of bids over asks among the best `levels` levels, as a share of both. -/
def imbalance (b : Book) (levels : Nat) : Checked (Option Decimal) := do
  let bids ← volume levels b.bids
  let asks ← volume levels b.asks
  let total ← .of (bids.add? asks)
  if total.isPositive then
    let excess ← .of (bids.sub? asks)
    let share ← Checked.of (excess.div? total)
    return some share
  else return none

def depth (l : Ladder) : Checked Decimal := .of (Decimal.sum? (l.map (·.2)))

def metrics (b : Book) : Checked BookMetrics := do
  return {
    midPrice := ← b.midPrice
    spreadBps := ← b.spreadBps
    imbalance := ← b.imbalance 5
    lastTradePrice := b.lastTrade.map (·.1)
    bidDepth := ← depth b.bids
    askDepth := ← depth b.asks
    bidLevels := b.bids.length
    askLevels := b.asks.length }

def levels (count : Nat) (l : Ladder) : List Level := (l.take count).map fun (p, q) => ⟨p, q⟩

/-- The state with at most `count` levels on each side. -/
def state (b : Book) (count : Nat) : Checked BookState := do
  return {
    pair := b.pair
    snapshotId := b.snapshotId
    lastUpdateId := b.appliedId
    bids := levels count b.bids
    asks := levels count b.asks
    metrics := ← b.metrics }

end Book

end BookFeed
