import BookFeed.Orders.Resting

/-!
# Reconciling snapshots and diffs

A synchronizer brings the messages of one pair, which may arrive late, repeatedly and out of order,
into the book of that pair. It keeps the diffs it has applied in a window, ordered as messages are.

* A snapshot replaces the book, and the diffs of the window that are newer are applied again.
* A diff that comes behind newer ones makes the book be rebuilt from the last snapshot.
* What orders before the last snapshot, and what is in the window already, has no effect.

The window is bounded. Once a diff newer than the last snapshot has left it (`truncated`), the book
cannot be rebuilt, and late diffs are applied on top of newer ones until the next snapshot.

A step that fails leaves the order state and the book rebuilt from the window, if the window still
tells them.

Out of scope: the memory that is set aside for a window when a synchronizer is made (there is none
for capacities that are beyond all reason), and log lines.
-/

namespace BookFeed

/-- What became of a message. -/
inductive Applied where
  | diff
  /-- a late diff, applied on top of newer ones -/
  | outOfOrder
  /-- a late diff; `replayed` diffs were applied again -/
  | rebuilt (replayed : Nat)
  /-- a snapshot; `replayed` newer diffs were applied again -/
  | snapshot (replayed : Nat)
  | trade
  /-- a diff that is in the window already -/
  | duplicate
  /-- a message that orders before the last snapshot -/
  | stale (kind : MessageKind)
deriving DecidableEq

/-- The order state and the book that a synchronizer keeps together. -/
structure Ledger where
  orders : RestingOrders
  book : Book
deriving DecidableEq

namespace Ledger

/-- Applies a diff to the orders and merges the rows it has, if any, into the book. -/
def applyDiff (l : Ledger) (m : Message) : Ledger × Except Error Unit :=
  match l.orders.applyDiff m with
  | (orders, .error e) => (⟨orders, l.book⟩, .error e)
  | (orders, .ok rows) =>
    if rows.bids.isEmpty ∧ rows.asks.isEmpty then (⟨orders, l.book⟩, .ok ())
    else (⟨orders, l.book.applyDiffs rows.bids rows.asks m.updateId⟩, .ok ())

/-- Applies diffs up to the first that fails. -/
def applyDiffs (l : Ledger) : List Message → Ledger × Except Error Unit
  | [] => (l, .ok ())
  | m :: ms =>
    match l.applyDiff m with
    | (l, .error e) => (l, .error e)
    | (l, .ok _) => l.applyDiffs ms

/-- Starts over from a snapshot, or from nothing. -/
def restart (l : Ledger) : Option Message → Ledger × Except Error Unit
  | some snapshot =>
    match l.orders.applySnapshot snapshot with
    | (orders, .error e) => (⟨orders, l.book⟩, .error e)
    | (orders, .ok rows) =>
      (⟨orders, l.book.applySnapshot rows.bids rows.asks snapshot.updateId⟩, .ok ())
  | none => (⟨.empty, l.book.reset⟩, .ok ())

end Ledger

/-- The state of reconciliation of a pair, its book included. -/
structure Synchronizer where
  pair : String
  /-- how many diffs the window holds -/
  capacity : Nat
  ledger : Ledger
  /-- the diffs applied last, in message order -/
  window : List Message := []
  lastSnapshot : Option Message := none
  /-- a diff newer than the last snapshot has left the window -/
  truncated : Bool := false
deriving DecidableEq

namespace Synchronizer

/-- The capacity of a window unless configured otherwise. -/
abbrev defaultCapacity : Nat := 32

/-- A synchronizer of `pair` that keeps at least one diff and writes `book`. -/
def new (pair : String) (capacity : Nat) (book : Book) : Synchronizer :=
  { pair, capacity := max 1 capacity, ledger := ⟨.empty, book⟩ }

def book (s : Synchronizer) : Book := s.ledger.book

def orders (s : Synchronizer) : RestingOrders := s.ledger.orders

def isBeforeSnapshot (s : Synchronizer) (m : Message) : Bool :=
  s.lastSnapshot.any fun snapshot => m.before snapshot

/-- The diffs of the window that are newer than the last snapshot. -/
def newer (s : Synchronizer) : List Message :=
  match s.lastSnapshot with
  | some snapshot => s.window.dropWhile (·.notAfter snapshot)
  | none => s.window

/-- Starts over from the last snapshot and applies the newer diffs of the window again. Answers how
many. -/
def rebuild (s : Synchronizer) : Synchronizer × Except Error Nat :=
  match s.ledger.restart s.lastSnapshot with
  | (ledger, .error e) => ({ s with ledger }, .error e)
  | (ledger, .ok _) =>
    match ledger.applyDiffs s.newer with
    | (ledger, .error e) => ({ s with ledger }, .error e)
    | (ledger, .ok _) => ({ s with ledger }, .ok s.newer.length)

/-- Rebuilds after a failure, where the window still tells how. -/
def restore (s : Synchronizer) : Synchronizer := if s.truncated then s else s.rebuild.1

/-- Lets the oldest diffs leave the window until it fits. -/
def trim (s : Synchronizer) : Synchronizer :=
  let leaving := s.window.take (s.window.length - s.capacity)
  { s with
    window := s.window.drop (s.window.length - s.capacity)
    truncated := s.truncated || leaving.any fun m =>
      match s.lastSnapshot with
      | some snapshot => snapshot.before m
      | none => true }

/-- The diff is in the window: one of the same place in the order has its update id. `upTo` are the
entries that do not order after it. -/
def isDuplicate (upTo : List Message) (m : Message) : Bool :=
  (upTo.reverse.takeWhile (·.sameOrder m)).any (·.updateId == m.updateId)

def processDiff (s : Synchronizer) (m : Message) : Synchronizer × Except Error Applied :=
  if s.isBeforeSnapshot m then (s, .ok (.stale .diff))
  else
    let upTo := s.window.takeWhile (·.notAfter m)
    let after := s.window.dropWhile (·.notAfter m)
    let grown := upTo ++ m :: after
    if isDuplicate upTo m then (s, .ok .duplicate)
    else if after.isEmpty || s.truncated then
      match s.ledger.applyDiff m with
      | (ledger, .error e) => (({ s with ledger } : Synchronizer).restore, .error e)
      | (ledger, .ok _) =>
        (({ s with ledger, window := grown } : Synchronizer).trim,
          .ok (if after.isEmpty then .diff else .outOfOrder))
    else
      match ({ s with window := grown } : Synchronizer).rebuild with
      | (s', .ok replayed) => (s'.trim, .ok (.rebuilt replayed))
      | (s', .error e) => (({ s' with window := s.window } : Synchronizer).restore, .error e)

def processSnapshot (s : Synchronizer) (m : Message) : Synchronizer × Except Error Applied :=
  if s.isBeforeSnapshot m then (s, .ok (.stale .snapshot))
  else
    match ({ s with lastSnapshot := some m, truncated := false } : Synchronizer).rebuild with
    | (s, .ok replayed) => (s, .ok (.snapshot replayed))
    | (s, .error e) => (s, .error e)

def processTrade (s : Synchronizer) (m : Message) : Synchronizer × Except Error Applied :=
  match m.content with
  | .trade t => ({ s with ledger.book := s.book.applyTrade t }, .ok .trade)
  | _ => (s, .ok .trade)

/-- Brings a message into the book. A message of another pair, or one for a book of another pair, is
an error. -/
def process (s : Synchronizer) (m : Message) : Synchronizer × Except Error Applied :=
  if m.pair ≠ s.pair ∨ s.book.pair ≠ s.pair then
    (s, .error (.orderBook (m.pair ++ " message routed to the " ++ s.pair ++ " synchronizer")))
  else
    match m.kind with
    | .diff => s.processDiff m
    | .snapshot => s.processSnapshot m
    | .trade => s.processTrade m

end Synchronizer

end BookFeed
