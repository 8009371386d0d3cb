import BookFeed.Json.Decode
import BookFeed.Message.Basic

/-!
# The parts of messages as JSON

How sides, kinds, orders, events, levels and trades are written, and which spellings are read. A
writer uses the first name of each list.
-/

namespace BookFeed

open Json (Decoded readRecord readName readText readDecimal ofOption?)

def Decimal.toJson (d : Decimal) : Json := .ofString d.toText

def Side.names : List (String × Side) :=
  [("bid", .bid), ("buy", .bid), ("BUY", .bid), ("ask", .ask), ("sell", .ask), ("SELL", .ask)]

def Side.name : Side → String
  | bid => "bid"
  | ask => "ask"

def Side.toJson (s : Side) : Json := .ofString s.name

def Side.ofJson : Json → Decoded Side := readName Side.names

def MessageKind.names : List (String × MessageKind) :=
  [("snapshot", .snapshot), ("diff", .diff), ("trade", .trade)]

def MessageKind.name : MessageKind → String
  | snapshot => "snapshot"
  | diff => "diff"
  | trade => "trade"

def MessageKind.toJson (k : MessageKind) : Json := .ofString k.name

def MessageKind.ofJson : Json → Decoded MessageKind := readName MessageKind.names

def EventKind.names : List (String × EventKind) :=
  [("open", .opened), ("change", .changed), ("match", .matched), ("done", .done)]

def EventKind.name : EventKind → String
  | opened => "open"
  | changed => "change"
  | matched => "match"
  | done => "done"

def EventKind.toJson (k : EventKind) : Json := .ofString k.name

def EventKind.ofJson : Json → Decoded EventKind := readName EventKind.names

/-! ## Records -/

/-- A record with some of the fields that orders, events, levels, rows and trades have. -/
structure OrderFields where
  kind : Option EventKind := none
  id : Option String := none
  price : Option Decimal := none
  amount : Option Decimal := none
  side : Option Side := none

/-- Reads a field of an order, an event or a trade. -/
def OrderFields.put (name : String) (value : Json) (f : OrderFields) : Decoded OrderFields :=
  match name with
  | "kind" => return { f with kind := some (← EventKind.ofJson value) }
  | "order_id" | "trade_id" => return { f with id := some (← readText value) }
  | "price" => return { f with price := some (← readDecimal value) }
  | "amount" => return { f with amount := some (← readDecimal value) }
  | "side" => return { f with side := some (← Side.ofJson value) }
  | _ => .error .malformed

def OrderEntry.ofJson (j : Json) : Decoded OrderEntry := do
  let f ← readRecord ["order_id", "price", "amount", "side"] OrderFields.put {} j
  return ⟨← ofOption? f.id, ← ofOption? f.price, ← ofOption? f.amount, ← ofOption? f.side⟩

def OrderEntry.toJson (e : OrderEntry) : Json :=
  .ofFields [("order_id", .ofString e.orderId), ("price", e.price.toJson),
    ("amount", e.amount.toJson), ("side", e.side.toJson)]

/-- An event may leave its amount out, which then is zero. -/
def OrderEvent.ofJson (j : Json) : Decoded OrderEvent := do
  let f ← readRecord ["kind", "order_id", "price", "amount", "side"] OrderFields.put {} j
  return ⟨← ofOption? f.kind, ← ofOption? f.id, ← ofOption? f.price, f.amount.getD .zero,
    ← ofOption? f.side⟩

def OrderEvent.toJson (e : OrderEvent) : Json :=
  .ofFields [("kind", e.kind.toJson), ("order_id", .ofString e.orderId), ("price", e.price.toJson),
    ("amount", e.amount.toJson), ("side", e.side.toJson)]

def PriceLevel.ofJson (j : Json) : Decoded PriceLevel := do
  let f ← readRecord ["price", "amount"] OrderFields.put {} j
  return ⟨← ofOption? f.price, ← ofOption? f.amount⟩

def PriceLevel.toJson (l : PriceLevel) : Json :=
  .ofFields [("price", l.price.toJson), ("amount", l.amount.toJson)]

def Trade.ofJson (j : Json) : Decoded Trade := do
  let f ← readRecord ["trade_id", "price", "amount", "side"] OrderFields.put {} j
  return ⟨← ofOption? f.id, ← ofOption? f.price, ← ofOption? f.amount, ← ofOption? f.side⟩

def Trade.toJson (t : Trade) : Json :=
  .ofFields [("trade_id", .ofString t.tradeId), ("price", t.price.toJson),
    ("amount", t.amount.toJson), ("side", t.side.toJson)]

end BookFeed
