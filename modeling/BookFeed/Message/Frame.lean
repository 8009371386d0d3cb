import BookFeed.Message.Json

/-!
# Frames

A frame is the JSON text in which an exchange adapter sends one message: an envelope with the kind,
the pair and whatever else the message has. `Message.parse` reads a frame, `Message.parseAll` an
array of them.

An envelope that lists orders is about orders, else one that lists events is about events, else it
is about price levels.
-/

namespace BookFeed

open Json (Decoded readRecord readText readOptional readList readFloat readCount readDecimalText
  ofOption? readDocument)

/-- The fields of a frame. -/
structure Envelope where
  kind : MessageKind
  pair : String
  timestamp : Option Binary64 := none
  updateId : Option UInt64 := none
  firstUpdateId : Option UInt64 := none
  bids : Option (List PriceLevel) := none
  asks : Option (List PriceLevel) := none
  orders : Option (List OrderEntry) := none
  events : Option (List OrderEvent) := none
  tradeId : Option String := none
  price : Option Decimal := none
  amount : Option Decimal := none
  side : Option Side := none

namespace Envelope

/-- An envelope under construction: the two fields that it must have may still be missing. -/
structure Draft where
  kind : Option MessageKind := none
  pair : Option String := none
  rest : Envelope := { kind := .snapshot, pair := "" }

/-- The fields in their declared order. -/
def fieldNames : List String :=
  ["type", "trading_pair", "timestamp", "update_id", "first_update_id", "bids", "asks", "orders",
    "events", "trade_id", "price", "amount", "side"]

/-- A price level from the texts of its price and its amount. -/
def levelOf : List String → Decoded PriceLevel
  | [price, amount] => do
    let price ← ofOption? (Decimal.read? price)
    let amount ← ofOption? (Decimal.read? amount)
    return ⟨price, amount⟩
  | _ => .error .levelFormat

/-- Price levels as pairs of texts. All texts are read before the first level is looked at. -/
def readLevels (j : Json) : Decoded (List PriceLevel) := do
  let rows ← readList (readList readText) j
  rows.mapM levelOf

def put (name : String) (value : Json) (d : Draft) : Decoded Draft :=
  match name with
  | "type" => return { d with kind := some (← MessageKind.ofJson value) }
  | "trading_pair" => return { d with pair := some (← readText value) }
  | "timestamp" => return { d with rest.timestamp := ← readOptional readFloat value }
  | "update_id" => return { d with rest.updateId := ← readOptional readCount value }
  | "first_update_id" => return { d with rest.firstUpdateId := ← readOptional readCount value }
  | "bids" => return { d with rest.bids := ← readOptional readLevels value }
  | "asks" => return { d with rest.asks := ← readOptional readLevels value }
  | "orders" => return { d with rest.orders := ← readOptional (readList OrderEntry.ofJson) value }
  | "events" => return { d with rest.events := ← readOptional (readList OrderEvent.ofJson) value }
  | "trade_id" => return { d with rest.tradeId := ← readOptional readText value }
  | "price" => return { d with rest.price := ← readOptional readDecimalText value }
  | "amount" => return { d with rest.amount := ← readOptional readDecimalText value }
  | "side" => return { d with rest.side := ← readOptional Side.ofJson value }
  | _ => .error .malformed

def ofJson (j : Json) : Decoded Envelope := do
  let d ← readRecord fieldNames put {} j
  return { d.rest with kind := ← ofOption? d.kind, pair := ← ofOption? d.pair }

/-! ## Contents -/

/-- How a kind is called in errors. -/
def kindTitle : MessageKind → String
  | .snapshot => "Snapshot"
  | .diff => "Diff"
  | .trade => "Trade"

def bookContent (e : Envelope) : Except Error Content :=
  match e.orders, e.events, e.bids, e.asks with
  | some orders, _, _, _ => .ok (.orders orders)
  | none, some events, _, _ => .ok (.events events)
  | none, none, none, none =>
    .error (.invalidMessage
      (kindTitle e.kind ++ " message for " ++ e.pair ++ " carries no book payload"))
  | none, none, bids, asks => .ok (.levels (bids.getD []) (asks.getD []))

/-- The value of a field that a trade must have. -/
def tradeField {α : Type} (e : Envelope) (name : String) : Option α → Except Error α
  | some a => .ok a
  | none => .error (.invalidMessage ("trade message for " ++ e.pair ++ " is missing " ++ name))

def tradeContent (e : Envelope) : Except Error Trade := do
  let tradeId ← e.tradeField "trade_id" e.tradeId
  let price ← e.tradeField "price" e.price
  let amount ← e.tradeField "amount" e.amount
  let side ← e.tradeField "side" e.side
  return ⟨tradeId, price, amount, side⟩

/-- The message in an envelope received at the time `now`. -/
def toMessage (now : Binary64) (e : Envelope) : Except Error Message :=
  match e.kind with
  | .snapshot => do Message.snapshot e.pair e.updateId e.timestamp (← e.bookContent)
  | .diff => do Message.diff now e.pair e.firstUpdateId e.updateId e.timestamp (← e.bookContent)
  | .trade => do Message.trade now e.pair e.timestamp (← e.tradeContent)

end Envelope

namespace Message

def decodeError (e : Json.DecodeError) : Error := .parse e.message

/-- The message of a frame received at the time `now`. -/
def parse (now : Binary64) (frame : String) : Except Error Message :=
  match readDocument Envelope.ofJson frame with
  | .error e => .error (decodeError e)
  | .ok envelope => envelope.toMessage now

/-- The messages of an array of frames. All envelopes are read before the first message is
made. -/
def parseAll (now : Binary64) (frames : String) : Except Error (List Message) :=
  match readDocument (readList Envelope.ofJson) frames with
  | .error e => .error (decodeError e)
  | .ok envelopes => envelopes.mapM (·.toMessage now)

end Message

end BookFeed
