import BookFeed.Decimal.Arith
import BookFeed.Error
import BookFeed.RateLimit.Basic

/-!
# Throttlers

A throttler keeps requests within their rate limits. It logs every admission as charges against the
limit of the path and the limits linked to it, and admits a request (`attempt`) when for each of
these limits the live charges and the new one are within the limit. A charge is live for as long as
the window of its limit and a safety margin.

`new` turns down settings under which a request could never be admitted. Weights are added up in
32-bit words: a sum that does not fit one ends the attempt without an admission.

Out of scope: arithmetic that wraps where it overflows. Out of scope here: calls that run side by
side, which `BookFeed.Proofs.Throttler.Interleaving` has.
-/

namespace BookFeed

/-- How requests are to be throttled. -/
structure Throttler.Settings where
  limits : List RateLimit := []
  /-- how much longer than the window a charge counts -/
  margin : Nat := Nanos.ofMillis 100
  /-- the pause between two attempts of a request -/
  retry : Nat := Nanos.ofMillis 100
  /-- the percentage of every limit that is to be used -/
  share : Option Decimal := none

/-- What an admission took of a limit. -/
structure Charge where
  time : Nat
  path : String
  weight : UInt32
deriving DecidableEq

/-- The limits and what has been charged to them. -/
structure Throttler where
  limits : List RateLimit
  margin : Nat
  retry : Nat
  retry_pos : 0 < retry
  /-- the charges that may still be live, oldest first -/
  log : List Charge := []
  /-- no request is admitted any more -/
  stopped : Bool := false
deriving DecidableEq

/-- What becomes of an attempt to be admitted. -/
inductive Attempt where
  | admitted
  /-- the path has no limit -/
  | unlimited
  /-- there is no room now -/
  | full
  | cancelled
  /-- a sum of weights is no 32-bit word -/
  | overflow
deriving DecidableEq, Repr

namespace Throttler

/-! ## Settings -/

/-- The part of a limit that is to be used, at least 1: `limit * pct / 100` rounded down. Where that
is no 32-bit word, as for negative percentages, it is the whole limit. -/
def shareOf (limit : UInt32) (pct : Decimal) : Except Halt UInt32 :=
  match ((Decimal.ofUInt64 limit.toUInt64).mul? pct).bind (·.div? (.ofNat 100)) with
  | none => .error .overflow
  | some share =>
    let floor := share.floor
    .ok (max 1 (if 0 ≤ floor ∧ floor < UInt32.size then UInt32.ofNat floor.toNat else limit))

/-- Adds a limit to those with other paths. -/
def addLimit (share : Option Decimal) (limits : List RateLimit) (l : RateLimit) :
    Except Halt (List RateLimit) := do
  let limit ← match share with
    | some pct => shareOf l.limit pct
    | none => .ok l.limit
  if limits.any (·.path == l.path) then .error (.error (.invalidRateLimit l.path "duplicate limit"))
  else return limits ++ [{ l with limit }]

/-- What is wrong with a linked limit. -/
def linkFault? (limits : List RateLimit) (k : LinkedLimit) : Option String :=
  match limits.find? (·.path == k.path) with
  | none => some ("linked limit " ++ k.path ++ " is not configured")
  | some pool => if k.weight ≤ pool.limit then none else some "linked weight exceeds the pool limit"

/-- What is wrong with a limit. -/
def fault? (limits : List RateLimit) (l : RateLimit) : Option String :=
  if l.limit = 0 then some "limit must be at least 1"
  else if l.window = 0 then some "window must be positive"
  else if l.weight = 0 ∨ l.limit < l.weight then some "weight must be between 1 and the limit"
  else l.linked.findSome? (linkFault? limits)

/-- The first limit with a fault makes the settings an error. -/
def validate (limits : List RateLimit) : Except Halt Unit :=
  match limits.findSome? fun l => (fault? limits l).map (l.path, ·) with
  | some (path, reason) => .error (.error (.invalidRateLimit path reason))
  | none => .ok ()

/-- A throttler with nothing charged. -/
def new (s : Settings) : Except Halt Throttler :=
  if h : 0 < s.retry then do
    let limits ← s.limits.foldlM (addLimit s.share) []
    validate limits
    return { limits, margin := s.margin, retry := s.retry, retry_pos := h }
  else .error (.error (.config "retry interval must be positive"))

/-! ## Charges -/

def limit? (t : Throttler) (path : String) : Option RateLimit := t.limits.find? (·.path == path)

/-- How long a charge to this limit is live. -/
def span (t : Throttler) (l : RateLimit) : Nat := l.window + l.margin.getD t.margin

def isLive (t : Throttler) (now : Nat) (c : Charge) : Bool :=
  match t.limit? c.path with
  | some l => decide (now - c.time < t.span l)
  | none => false

/-- The live charges. -/
def live (t : Throttler) (now : Nat) : List Charge := t.log.filter (t.isLive now)

/-- The weight charged to a path. -/
def weightOn (path : String) (charges : List Charge) : Nat :=
  charges.foldl (fun sum c => if c.path = path then sum + c.weight.toNat else sum) 0

/-- The 32-bit word of this value, if there is one. -/
def word (n : Nat) : Except Halt UInt32 :=
  if n < UInt32.size then .ok (UInt32.ofNat n) else .error .overflow

/-- The weight that counts against a path. -/
def occupancy (t : Throttler) (now : Nat) (path : String) : Except Halt UInt32 :=
  word (weightOn path (t.live now))

/-- The limits that a request under `l` is charged to, and with what weights: first `l` itself, then
the limits linked to it. -/
def demands (t : Throttler) (l : RateLimit) : List (RateLimit × UInt32) :=
  (l, l.weight) :: l.linked.filterMap fun k => (t.limit? k.path).map fun pool => (pool, k.weight)

/-- Whether beside these charges there is room for one more of this weight. -/
def hasRoom (charges : List Charge) (demand : RateLimit × UInt32) : Except Halt Bool :=
  (word (weightOn demand.1.path charges + demand.2.toNat)).map fun sum =>
    decide (sum ≤ demand.1.limit)

/-- Whether there is room for each demand by itself. The first one for which there is none settles
it. -/
def haveRoom (charges : List Charge) : List (RateLimit × UInt32) → Except Halt Bool
  | [] => .ok true
  | demand :: demands =>
    match hasRoom charges demand with
    | .ok true => haveRoom charges demands
    | outcome => outcome

/-! ## Admission -/

/-- One attempt to be admitted at the time `now`. Charges that are no longer live are forgotten. -/
def attempt (t : Throttler) (now : Nat) (path : String) : Throttler × Attempt :=
  if t.stopped then (t, .cancelled)
  else
    match t.limit? path with
    | none => (t, .unlimited)
    | some l =>
      let live := t.live now
      let demands := t.demands l
      match haveRoom live demands with
      | .ok true =>
        ({ t with log := live ++ demands.map fun (d, w) => ⟨now, d.path, w⟩ }, .admitted)
      | .ok false => ({ t with log := live }, .full)
      | .error _ => ({ t with log := live }, .overflow)

/-- From now on nothing is admitted. -/
def stop (t : Throttler) : Throttler := { t with stopped := true }

end Throttler

end BookFeed
