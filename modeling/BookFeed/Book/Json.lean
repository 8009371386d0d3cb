import BookFeed.Book.State
import BookFeed.Message.Json

/-!
# Rows, levels and book states as JSON

States are published as JSON texts and read back by consumers. Decimals are written as their text;
what has no value is null.
-/

namespace BookFeed

open Json (Decoded readRecord readText readDecimal readCount readOptional readList ofOption?)

/-! ## Rows and levels -/

/-- A row or a level under construction. -/
structure RowFields where
  price : Option Decimal := none
  amount : Option Decimal := none
  updateId : Option UInt64 := none

/-- Reads a field of a row or a level. -/
def RowFields.put (name : String) (value : Json) (f : RowFields) : Decoded RowFields :=
  match name with
  | "price" => return { f with price := some (← readDecimal value) }
  | "amount" | "quantity" => return { f with amount := some (← readDecimal value) }
  | "update_id" => return { f with updateId := some (← readCount value) }
  | _ => .error .malformed

def Row.ofJson (j : Json) : Decoded Row := do
  let f ← readRecord ["price", "amount", "update_id"] RowFields.put {} j
  return ⟨← ofOption? f.price, ← ofOption? f.amount, ← ofOption? f.updateId⟩

def Row.toJson (r : Row) : Json :=
  .ofFields [("price", r.price.toJson), ("amount", r.amount.toJson),
    ("update_id", .ofCount r.updateId)]

def Level.ofJson (j : Json) : Decoded Level := do
  let f ← readRecord ["price", "quantity"] RowFields.put {} j
  return ⟨← ofOption? f.price, ← ofOption? f.amount⟩

def Level.toJson (l : Level) : Json :=
  .ofFields [("price", l.price.toJson), ("quantity", l.quantity.toJson)]

/-! ## Metrics -/

namespace BookMetrics

/-- Metrics under construction. -/
structure Draft where
  midPrice : Option Decimal := none
  spreadBps : Option Decimal := none
  imbalance : Option Decimal := none
  lastTradePrice : Option Decimal := none
  bidDepth : Option Decimal := none
  askDepth : Option Decimal := none
  bidLevels : Option UInt64 := none
  askLevels : Option UInt64 := none

/-- The fields in their declared order. -/
def fieldNames : List String :=
  ["mid_price", "spread_bps", "imbalance", "last_trade_price", "bid_depth", "ask_depth",
    "bid_levels", "ask_levels"]

def put (name : String) (value : Json) (d : Draft) : Decoded Draft :=
  match name with
  | "mid_price" => return { d with midPrice := ← readOptional readDecimal value }
  | "spread_bps" => return { d with spreadBps := ← readOptional readDecimal value }
  | "imbalance" => return { d with imbalance := ← readOptional readDecimal value }
  | "last_trade_price" => return { d with lastTradePrice := ← readOptional readDecimal value }
  | "bid_depth" => return { d with bidDepth := some (← readDecimal value) }
  | "ask_depth" => return { d with askDepth := some (← readDecimal value) }
  | "bid_levels" => return { d with bidLevels := some (← readCount value) }
  | "ask_levels" => return { d with askLevels := some (← readCount value) }
  | _ => .error .malformed

def ofJson (j : Json) : Decoded BookMetrics := do
  let d ← readRecord fieldNames put {} j
  return {
    midPrice := d.midPrice
    spreadBps := d.spreadBps
    imbalance := d.imbalance
    lastTradePrice := d.lastTradePrice
    bidDepth := ← ofOption? d.bidDepth
    askDepth := ← ofOption? d.askDepth
    bidLevels := (← ofOption? d.bidLevels).toNat
    askLevels := (← ofOption? d.askLevels).toNat }

def toJson (m : BookMetrics) : Json :=
  .ofFields [
    ("mid_price", .ofOption Decimal.toJson m.midPrice),
    ("spread_bps", .ofOption Decimal.toJson m.spreadBps),
    ("imbalance", .ofOption Decimal.toJson m.imbalance),
    ("last_trade_price", .ofOption Decimal.toJson m.lastTradePrice),
    ("bid_depth", m.bidDepth.toJson),
    ("ask_depth", m.askDepth.toJson),
    ("bid_levels", .ofNat m.bidLevels),
    ("ask_levels", .ofNat m.askLevels)]

end BookMetrics

/-! ## States -/

namespace BookState

/-- A state under construction. -/
structure Draft where
  pair : Option String := none
  snapshotId : Option UInt64 := none
  lastUpdateId : Option UInt64 := none
  bids : Option (List Level) := none
  asks : Option (List Level) := none
  metrics : Option BookMetrics := none

/-- The fields in their declared order. -/
def fieldNames : List String :=
  ["trading_pair", "snapshot_uid", "last_update_id", "bids", "asks", "metrics"]

def put (name : String) (value : Json) (d : Draft) : Decoded Draft :=
  match name with
  | "trading_pair" => return { d with pair := some (← readText value) }
  | "snapshot_uid" => return { d with snapshotId := some (← readCount value) }
  | "last_update_id" => return { d with lastUpdateId := some (← readCount value) }
  | "bids" => return { d with bids := some (← readList Level.ofJson value) }
  | "asks" => return { d with asks := some (← readList Level.ofJson value) }
  | "metrics" => return { d with metrics := some (← BookMetrics.ofJson value) }
  | _ => .error .malformed

def ofJson (j : Json) : Decoded BookState := do
  let d ← readRecord fieldNames put {} j
  return ⟨← ofOption? d.pair, ← ofOption? d.snapshotId, ← ofOption? d.lastUpdateId,
    ← ofOption? d.bids, ← ofOption? d.asks, ← ofOption? d.metrics⟩

def toJson (s : BookState) : Json :=
  .ofFields [
    ("trading_pair", .ofString s.pair),
    ("snapshot_uid", .ofCount s.snapshotId),
    ("last_update_id", .ofCount s.lastUpdateId),
    ("bids", .array (s.bids.map Level.toJson)),
    ("asks", .array (s.asks.map Level.toJson)),
    ("metrics", s.metrics.toJson)]

/-- The text in which a state is published. -/
def toText (s : BookState) : String := s.toJson.toText

/-- Reads a published text. -/
def read (text : String) : Decoded BookState := Json.readDocument ofJson text

end BookState

end BookFeed
