import BookFeed.Book.Basic
import BookFeed.Decimal.Arith
import BookFeed.Decimal.Text

/-!
# Resting orders

Some exchanges report single orders instead of price levels. `RestingOrders` keeps every resting
order of a pair by id, next to the total amount at each price, and turns each message into the rows
whose totals it changed. Price levels pass through unchanged.

A diff that comes again, with the update id and the time of one applied since the last snapshot, has
no rows and no effect. The last 1024 diffs are remembered for that.

A total may become too large for a decimal. The step then ends with an error and keeps what it has
done so far, so every step answers a state beside its outcome.
-/

namespace BookFeed

/-- An order at rest. -/
structure RestingOrder where
  price : Decimal
  amount : Decimal
  side : Side
deriving DecidableEq

/-- What tells one diff from another: its update id and its exact time. -/
structure DiffKey where
  updateId : UInt64
  time : UInt64
deriving DecidableEq

/-- The rows of both sides, best price first. -/
structure BookRows where
  bids : List Row := []
  asks : List Row := []
deriving DecidableEq

/-- A price of a side whose total has changed. -/
abbrev Touched := Side × Decimal

/-- The resting orders of a pair. -/
structure RestingOrders where
  /-- by id, in the order of ids -/
  orders : List (String × RestingOrder) := []
  /-- the total amount of the bids at each price -/
  bids : Ladder := []
  /-- the total amount of the asks at each price -/
  asks : Ladder := []
  /-- the highest update applied so far -/
  lastUpdateId : Option UInt64 := none
  /-- the diffs applied since the last snapshot that are remembered, oldest first -/
  applied : List DiffKey := []
deriving DecidableEq

namespace RestingOrders

/-- How many diffs are remembered. -/
abbrev memory : Nat := 1024

def empty : RestingOrders := {}

instance : Inhabited RestingOrders := ⟨empty⟩

/-! ## Reading -/

def order? (t : RestingOrders) (id : String) : Option RestingOrder :=
  Sorted.get? compare id t.orders

def totals (t : RestingOrders) : Side → Ladder
  | .bid => t.bids
  | .ask => t.asks

/-- The total amount resting at a price. -/
def aggregate (t : RestingOrders) (side : Side) (price : Decimal) : Decimal :=
  ((t.totals side).get? side price).getD .zero

def size (t : RestingOrders) : Nat := t.orders.length

def isEmpty (t : RestingOrders) : Bool := t.orders.isEmpty

/-! ## Totals -/

def setTotals (t : RestingOrders) (side : Side) (l : Ladder) : RestingOrders :=
  match side with
  | .bid => { t with bids := l }
  | .ask => { t with asks := l }

def sum (a b : Decimal) : Except Error Decimal :=
  match a.add? b with
  | some c => .ok c
  | none => .error (.orderBook ("aggregate overflow adding " ++ b.toText ++ " to " ++ a.toText))

def difference (a b : Decimal) : Except Error Decimal :=
  match a.sub? b with
  | some c => .ok c
  | none =>
    .error (.orderBook ("aggregate overflow subtracting " ++ b.toText ++ " from " ++ a.toText))

/-- Adds an amount to the total at a price. -/
def deposit (t : RestingOrders) (side : Side) (price amount : Decimal) :
    Except Error RestingOrders :=
  match sum (((t.totals side).get? side price).getD .zero) amount with
  | .ok total => .ok (t.setTotals side (Sorted.insert side.order price total (t.totals side)))
  | .error e => .error e

/-- Takes an amount from the total at a price. A total that is no longer positive goes away. -/
def withdraw (t : RestingOrders) (side : Side) (price amount : Decimal) :
    Except Error RestingOrders :=
  match (t.totals side).get? side price with
  | none => .ok t
  | some total =>
    match difference total amount with
    | .error e => .error e
    | .ok rest =>
      if rest.isPositive then
        .ok (t.setTotals side (Sorted.insert side.order price rest (t.totals side)))
      else .ok (t.setTotals side (Sorted.erase side.order price (t.totals side)))

/-! ## Single orders -/

def setOrder (t : RestingOrders) (id : String) (o : RestingOrder) : RestingOrders :=
  { t with orders := Sorted.insert compare id o t.orders }

/-- Lets an order come to rest. An order without a positive amount does not. -/
def rest (t : RestingOrders) (id : String) (o : RestingOrder) :
    RestingOrders × Except Error (List Touched) :=
  if o.amount.isPositive then
    match t.deposit o.side o.price o.amount with
    | .ok t => (t.setOrder id o, .ok [(o.side, o.price)])
    | .error e => (t, .error e)
  else (t, .ok [])

/-- Takes an order away. -/
def close (t : RestingOrders) (id : String) : RestingOrders × Except Error (List Touched) :=
  match t.order? id with
  | none => (t, .ok [])
  | some o =>
    let t := { t with orders := Sorted.erase compare id t.orders }
    match t.withdraw o.side o.price o.amount with
    | .ok t => (t, .ok [(o.side, o.price)])
    | .error e => (t, .error e)

/-- Gives a resting order a new size. -/
def resize (t : RestingOrders) (id : String) (o : RestingOrder) (amount : Decimal) :
    RestingOrders × Except Error (List Touched) :=
  if amount.isPositive then
    match t.withdraw o.side o.price o.amount with
    | .error e => (t, .error e)
    | .ok t =>
      match t.deposit o.side o.price amount with
      | .error e => (t, .error e)
      | .ok t => (t.setOrder id { o with amount }, .ok [(o.side, o.price)])
  else t.close id

/-- An order that may be known already: the old one is closed first. -/
def replace (t : RestingOrders) (id : String) (o : RestingOrder) :
    RestingOrders × Except Error (List Touched) :=
  match t.close id with
  | (t, .error e) => (t, .error e)
  | (t, .ok closed) =>
    match t.rest id o with
    | (t, .error e) => (t, .error e)
    | (t, .ok opened) => (t, .ok (closed ++ opened))

/-- Applies an event. Changes and matches of unknown orders have no effect. -/
def applyEvent (t : RestingOrders) (e : OrderEvent) :
    RestingOrders × Except Error (List Touched) :=
  match e.kind with
  | .opened => t.replace e.orderId ⟨e.price, e.amount, e.side⟩
  | .changed =>
    match t.order? e.orderId with
    | some o => t.resize e.orderId o e.amount
    | none => (t, .ok [])
  | .matched =>
    match t.order? e.orderId with
    | some o =>
      match difference o.amount e.amount with
      | .ok remaining => t.resize e.orderId o remaining
      | .error error => (t, .error error)
    | none => (t, .ok [])
  | .done => t.close e.orderId

/-- Applies events up to the first that fails. -/
def applyEvents (t : RestingOrders) : List OrderEvent → RestingOrders × Except Error (List Touched)
  | [] => (t, .ok [])
  | e :: es =>
    match t.applyEvent e with
    | (t, .error error) => (t, .error error)
    | (t, .ok touched) =>
      match t.applyEvents es with
      | (t, .error error) => (t, .error error)
      | (t, .ok more) => (t, .ok (touched ++ more))

/-- Takes in the orders of a snapshot up to the first that fails. -/
def addEntries (t : RestingOrders) : List OrderEntry → RestingOrders × Except Error Unit
  | [] => (t, .ok ())
  | e :: es =>
    match t.replace e.orderId ⟨e.price, e.amount, e.side⟩ with
    | (t, .error error) => (t, .error error)
    | (t, .ok _) => t.addEntries es

/-! ## Messages -/

/-- The prices of a side among those touched, each once and best price first. -/
def touchedPrices (side : Side) (touched : List Touched) : List Decimal :=
  (touched.filter (·.1 = side)).foldl (fun ps t => Sorted.insertKey side.order t.2 ps) []

/-- The present totals at the touched prices. -/
def touchedRows (t : RestingOrders) (side : Side) (touched : List Touched) (updateId : UInt64) :
    List Row :=
  (touchedPrices side touched).map fun p => ⟨p, t.aggregate side p, updateId⟩

/-- Every total of a side. -/
def allRows (t : RestingOrders) (side : Side) (updateId : UInt64) : List Row :=
  (t.totals side).map fun (p, q) => ⟨p, q, updateId⟩

/-- The same ids, but no orders, no totals and nothing remembered. -/
def cleared (t : RestingOrders) : RestingOrders :=
  { t with orders := [], bids := [], asks := [], applied := [] }

/-- Starts over from a snapshot and answers every level. -/
def applySnapshot (t : RestingOrders) (m : Message) : RestingOrders × Except Error BookRows :=
  match m.content with
  | .orders entries =>
    match t.cleared.addEntries entries with
    | (t, .error e) => (t, .error e)
    | (t, .ok _) =>
      ({ t with lastUpdateId := some m.updateId },
        .ok ⟨t.allRows .bid m.updateId, t.allRows .ask m.updateId⟩)
  | .levels _ _ =>
    ({ t.cleared with lastUpdateId := some m.updateId }, .ok ⟨m.bids, m.asks⟩)
  | _ =>
    (t.cleared, .error (.invalidMessage ("snapshot for " ++ m.pair ++ " has no book content")))

def keyOf (m : Message) : DiffKey := ⟨m.updateId, m.timestamp.bits⟩

/-- Remembers a diff, and forgets the oldest one where there would be too many. -/
def remember (t : RestingOrders) (key : DiffKey) : RestingOrders :=
  { t with applied := (if memory ≤ t.applied.length then t.applied.drop 1 else t.applied) ++ [key] }

/-- Notes that a diff has been applied. -/
def noteApplied (t : RestingOrders) (m : Message) : RestingOrders :=
  { t.remember (keyOf m) with
    lastUpdateId := some (match t.lastUpdateId with
      | some last => max last m.updateId
      | none => m.updateId) }

/-- Applies a diff and answers the levels whose totals have changed. -/
def applyDiff (t : RestingOrders) (m : Message) : RestingOrders × Except Error BookRows :=
  if t.applied.contains (keyOf m) then (t, .ok {})
  else
    match m.content with
    | .events events =>
      match t.applyEvents events with
      | (t, .error e) => (t, .error e)
      | (t, .ok touched) =>
        (t.noteApplied m,
          .ok ⟨t.touchedRows .bid touched m.updateId, t.touchedRows .ask touched m.updateId⟩)
    | .levels _ _ => (t.noteApplied m, .ok ⟨m.bids, m.asks⟩)
    | _ => (t, .error (.invalidMessage ("diff for " ++ m.pair ++ " has no book content")))

end RestingOrders

end BookFeed
