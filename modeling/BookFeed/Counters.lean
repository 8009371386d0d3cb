/-!
# Counters

What is counted while books are kept, and how the counts are written for a collector of metrics:
`Counters.sections` are the counters by family, families in the order of their names and the
counters of a family in the order of their label values.

Out of scope: the counters of a throttler's admissions and waits.
-/

namespace BookFeed

/-- Why a message has no effect on any book. -/
inductive Rejection where
  | untracked
  | duplicate
  | staleSnapshot
  | staleDiff
deriving DecidableEq, Repr

def Rejection.name : Rejection → String
  | untracked => "untracked"
  | duplicate => "duplicate"
  | staleSnapshot => "stale_snapshot"
  | staleDiff => "stale_diff"

/-- What is counted. -/
inductive Counter where
  /-- the diffs applied to the book of a pair -/
  | diffs (exchange pair : String)
  /-- the snapshots applied to the book of a pair -/
  | snapshots (exchange pair : String)
  /-- the messages of an exchange that had no effect -/
  | rejected (exchange : String) (reason : Rejection)
  /-- the faults that a component has recovered from -/
  | faults (component : String)
  /-- how often the user stream of an exchange was started -/
  | restarts (exchange : String)
deriving DecidableEq, Repr

/-- Counters that share their name and differ in their labels. -/
inductive Counter.Family where
  | faults
  | diffs
  | rejected
  | snapshots
  | restarts
deriving DecidableEq, Repr

namespace Counter.Family

/-- The families in the order of their names. -/
def all : List Family := [faults, diffs, rejected, snapshots, restarts]

def name : Family → String
  | faults => "market_sync_network_faults_total"
  | diffs => "market_sync_orderbook_diffs_applied_total"
  | rejected => "market_sync_orderbook_messages_rejected_total"
  | snapshots => "market_sync_orderbook_snapshots_applied_total"
  | restarts => "market_sync_user_stream_restarts_total"

def help : Family → String
  | faults => "Recoverable network faults"
  | diffs => "Diff messages applied to order books"
  | rejected => "Order book messages dropped as stale or untracked"
  | snapshots => "Snapshot messages applied to order books"
  | restarts => "User stream listener (re)starts"

end Counter.Family

namespace Counter

def family : Counter → Family
  | diffs _ _ => .diffs
  | snapshots _ _ => .snapshots
  | rejected _ _ => .rejected
  | faults _ => .faults
  | restarts _ => .restarts

/-- The labels with their values, in the order of the labels' names. -/
def labels : Counter → List (String × String)
  | diffs exchange pair | snapshots exchange pair =>
    [("exchange", exchange), ("trading_pair", pair)]
  | rejected exchange reason => [("exchange", exchange), ("reason", reason.name)]
  | faults component => [("component", component)]
  | restarts exchange => [("exchange", exchange)]

/-- The characters that stand for one character of a label's value. -/
def escape (c : Char) : List Char :=
  if c = '\\' then ['\\', '\\']
  else if c = '"' then ['\\', '"']
  else if c = '\n' then ['\\', 'n']
  else [c]

def labelText (label : String × String) : String :=
  label.1 ++ "=\"" ++ String.ofList (label.2.toList.flatMap escape) ++ "\""

/-- The counter's name and labels. -/
def text (c : Counter) : String :=
  c.family.name ++ "\x7b" ++ ",".intercalate (c.labels.map labelText) ++ "\x7d"

/-- Orders the counters of a family. -/
def notAfter (c d : Counter) : Bool := compare (c.labels.map (·.2)) (d.labels.map (·.2)) != .gt

end Counter

/-- The counts so far. A counter that is not there stands at zero. -/
structure Counters where
  /-- each counter once -/
  counts : List (Counter × Nat) := []

namespace Counters

/-- Where a counter of a list stands. -/
def find (c : Counter) : List (Counter × Nat) → Nat
  | [] => 0
  | (d, n) :: rest => if c = d then n else find c rest

/-- Where a counter stands. -/
def get (cs : Counters) (c : Counter) : Nat := find c cs.counts

/-- Adds to a counter of a list, which is put at the end unless it is there. -/
def add (c : Counter) (n : Nat) : List (Counter × Nat) → List (Counter × Nat)
  | [] => [(c, n)]
  | (d, k) :: rest => if c = d then (d, k + n) :: rest else (d, k) :: add c n rest

/-- Lets a counter be there. -/
def touch (cs : Counters) (c : Counter) : Counters := ⟨add c 0 cs.counts⟩

/-- Counts one. -/
def increment (cs : Counters) (c : Counter) : Counters := ⟨add c 1 cs.counts⟩

theorem find_add (c d : Counter) (n : Nat) (counts : List (Counter × Nat)) :
    find d (add c n counts) = find d counts + if d = c then n else 0 := by
  induction counts with
  | nil => by_cases h : d = c <;> simp [add, find, h]
  | cons e rest ih =>
    obtain ⟨e, k⟩ := e
    rw [add]
    by_cases hc : c = e
    · subst hc
      by_cases hd : d = c <;> simp [find, hd]
    · rw [if_neg hc, find, ih]
      by_cases hd : d = e
      · subst hd; simp [find, Ne.symm hc]
      · simp [find, hd]

@[simp] theorem get_touch (cs : Counters) (c d : Counter) : (cs.touch c).get d = cs.get d := by
  simp [get, touch, find_add]

theorem get_increment (cs : Counters) (c d : Counter) :
    (cs.increment c).get d = cs.get d + if d = c then 1 else 0 := find_add c d 1 cs.counts

/-- The counters of a family, as they are written. -/
structure Section where
  family : Counter.Family
  /-- the counters in the order of their label values -/
  series : List (Counter × Nat)

/-- The lines that introduce a family. -/
def Section.header (s : Section) : List String :=
  ["# HELP " ++ s.family.name ++ " " ++ s.family.help, "# TYPE " ++ s.family.name ++ " counter"]

/-- The families that have counters. -/
def sections (cs : Counters) : List Section :=
  (Counter.Family.all.map fun f =>
    { family := f
      series := (cs.counts.filter (·.1.family = f)).mergeSort fun a b => a.1.notAfter b.1 }).filter
    (!·.series.isEmpty)

/-- All counters, as a collector reads them. -/
def exposition (cs : Counters) : List String :=
  cs.sections.flatMap fun s => s.header ++ s.series.map fun (c, n) => c.text ++ " " ++ toString n

end Counters

end BookFeed
