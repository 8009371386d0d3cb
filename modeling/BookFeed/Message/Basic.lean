import BookFeed.Binary64.Text
import BookFeed.Decimal.Basic
import BookFeed.Error

/-!
# Order book messages

A message is a snapshot, a diff or a trade of one trading pair, with the time it stands for.
Messages are made by `Message.snapshot`, `Message.diff` and `Message.trade`, which refuse what no
feed may say (`Message.WellFormed`).

Messages are ordered by time, and at one time a snapshot comes before a diff and a diff before a
trade (`Message.compare`). The order does not look at the payload.
-/

namespace BookFeed

/-- A side of the book. -/
inductive Side where
  | bid
  | ask
deriving DecidableEq, Repr

/-- A resting order, as an order snapshot lists it. -/
structure OrderEntry where
  orderId : String
  price : Decimal
  amount : Decimal
  side : Side
deriving DecidableEq

/-- What happened to an order. -/
inductive EventKind where
  /-- it came to rest, with `amount` left -/
  | opened
  /-- its size is now `amount` -/
  | changed
  /-- `amount` of it was matched -/
  | matched
  /-- it left the book -/
  | done
deriving DecidableEq, Repr

/-- A change of one order, as a diff reports it. -/
structure OrderEvent where
  kind : EventKind
  orderId : String
  price : Decimal
  amount : Decimal
  side : Side
deriving DecidableEq

/-- A price and the amount at it. -/
structure PriceLevel where
  price : Decimal
  amount : Decimal
deriving DecidableEq

/-- A trade. -/
structure Trade where
  tradeId : String
  price : Decimal
  amount : Decimal
  side : Side
deriving DecidableEq

/-- What a message carries. -/
inductive Content where
  /-- every resting order -/
  | orders (entries : List OrderEntry)
  /-- changes of single orders -/
  | events (events : List OrderEvent)
  /-- amounts by price; a zero amount removes the level -/
  | levels (bids asks : List PriceLevel)
  | trade (trade : Trade)
deriving DecidableEq

/-- The kinds of message, in the order in which they count at one time. -/
inductive MessageKind where
  | snapshot
  | diff
  | trade
deriving DecidableEq, Repr

def MessageKind.rank : MessageKind → Nat
  | snapshot => 0
  | diff => 1
  | trade => 2

/-- A message of this kind may carry this content. -/
def MessageKind.admits : MessageKind → Content → Bool
  | snapshot, .orders _ => true
  | snapshot, .levels _ _ => true
  | diff, .events _ => true
  | diff, .levels _ _ => true
  | trade, .trade _ => true
  | _, _ => false

/-- The new amount at a price, and the update that brought it. -/
structure Row where
  price : Decimal
  amount : Decimal
  updateId : UInt64
deriving DecidableEq

/-- A message about one trading pair. -/
structure Message where
  kind : MessageKind
  /-- in seconds -/
  timestamp : Binary64
  pair : String
  updateId : UInt64
  /-- the first update of a range, if the message covers one -/
  rangeStart : Option UInt64
  content : Content
deriving DecidableEq

namespace Message

/-- What every message made by this module satisfies. -/
structure WellFormed (m : Message) : Prop where
  pair_ne : m.pair ≠ ""
  timestamp_ok : m.timestamp.isFiniteNonneg = true
  content_ok : m.kind.admits m.content = true

/-! ## Making messages -/

/-- The update id of a message that carries none: its time in milliseconds. -/
def derivedUpdateId (timestamp : Binary64) : UInt64 :=
  (timestamp.mul (Binary64.ofNat 1000)).toUInt64

/-- The message, unless its pair or its time is out of bounds. -/
def make (kind : MessageKind) (pair : String) (updateId rangeStart : Option UInt64)
    (timestamp : Binary64) (content : Content) : Except Error Message :=
  if pair = "" then .error (.invalidMessage "empty trading pair")
  else if !timestamp.isFiniteNonneg then
    .error (.invalidMessage ("invalid timestamp " ++ timestamp.positional ++ " for " ++ pair))
  else .ok ⟨kind, timestamp, pair, updateId.getD (derivedUpdateId timestamp), rangeStart, content⟩

/-- A snapshot. Its time is never inferred. -/
def snapshot (pair : String) (updateId : Option UInt64) (timestamp : Option Binary64)
    (content : Content) : Except Error Message :=
  match timestamp with
  | none => .error (.missingTimestamp pair)
  | some t =>
    if MessageKind.snapshot.admits content then make .snapshot pair updateId none t content
    else .error (.invalidMessage ("snapshot for " ++ pair ++ " must carry orders or levels"))

/-- A diff, by default of the time `now` at which it was received. -/
def diff (now : Binary64) (pair : String) (rangeStart updateId : Option UInt64)
    (timestamp : Option Binary64) (content : Content) : Except Error Message :=
  if MessageKind.diff.admits content then
    make .diff pair updateId rangeStart (timestamp.getD now) content
  else .error (.invalidMessage ("diff for " ++ pair ++ " must carry order events or levels"))

/-- A trade, by default of the time `now` at which it was received. -/
def trade (now : Binary64) (pair : String) (timestamp : Option Binary64) (trade : Trade) :
    Except Error Message :=
  make .trade pair none none (timestamp.getD now) (.trade trade)

/-! ## Reading messages -/

/-- The first update that the message covers. -/
def firstUpdateId (m : Message) : UInt64 := m.rangeStart.getD m.updateId

def toRow (m : Message) (level : PriceLevel) : Row := ⟨level.price, level.amount, m.updateId⟩

/-- The bid rows of a message that carries levels. -/
def bids (m : Message) : List Row :=
  match m.content with
  | .levels bids _ => bids.map m.toRow
  | _ => []

/-- The ask rows of a message that carries levels. -/
def asks (m : Message) : List Row :=
  match m.content with
  | .levels _ asks => asks.map m.toRow
  | _ => []

def tradeId? (m : Message) : Option String :=
  match m.content with
  | .trade t => some t.tradeId
  | _ => none

/-! ## The order of messages -/

/-- Time first, then the kind of message. -/
protected def compare (a b : Message) : Ordering :=
  (compare a.timestamp.totalKey b.timestamp.totalKey).then (compare a.kind.rank b.kind.rank)

instance : Ord Message := ⟨Message.compare⟩

/-- `a` orders strictly before `b`. -/
def before (a b : Message) : Bool := a.compare b == .lt

/-- `a` does not order after `b`. -/
def notAfter (a b : Message) : Bool := a.compare b != .gt

/-- `a` and `b` stand at one place of the order. -/
def sameOrder (a b : Message) : Bool := a.compare b == .eq

end Message

end BookFeed
