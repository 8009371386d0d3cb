import BookFeed.Binary64.Text
import BookFeed.Decimal.Text
import BookFeed.Error
import BookFeed.RateLimit.Basic
import BookFeed.Text.Blank

/-!
# Rate limits as text

A list of rate limits is written with commas, each limit as `path:limit:window` or
`path:limit:window:weight` with the window in seconds. Blanks around a limit and around its fields
do not count, and empty limits are skipped.

The first limit that is not well formed makes the whole list an error, which quotes that limit. A
window is rounded to the nanosecond, a half to the even neighbour; it may become zero by that. A
window of `2 ^ 64` seconds or more ends the reading.
-/

namespace BookFeed

/-- The duration of so many seconds, a finite number that is not below zero. -/
def Nanos.ofBinary64 (seconds : Binary64) : Except Halt Nat :=
  let (num, den) := seconds.ratio
  if UInt64.size * den ≤ num then .error .overflow else .ok (roundHalfEven (num * 1000000000) den)

namespace RateLimit

/-- Reads a count below `2 ^ 32`, or says what is wrong with this limit. -/
def readCount (entry : List Char) (reason : String) (field : List Char) : Except Halt UInt32 :=
  match Decimal.readNat? UInt32.size field with
  | some n => .ok (UInt32.ofNat n)
  | none => .error (.error (.invalidRateLimit (String.ofList entry) reason))

/-- Reads a window in seconds, or says what is wrong with this limit. -/
def readWindow (entry field : List Char) : Except Halt Nat :=
  match Binary64.read? (String.ofList field) with
  | none => .error (.error (.invalidRateLimit (String.ofList entry) "window is not a number"))
  | some seconds =>
    if seconds.isFinite && !seconds.isNegative && !seconds.isZero then Nanos.ofBinary64 seconds
    else .error (.error (.invalidRateLimit (String.ofList entry) "window must be positive"))

/-- Reads one limit, without blanks around it. -/
def readEntry (entry : List Char) : Except Halt RateLimit :=
  let malformed : Except Halt RateLimit := .error (.error
    (.invalidRateLimit (String.ofList entry) "expected path:limit:window[:weight]"))
  let make (path limit window : List Char) (weight : Option (List Char)) : Except Halt RateLimit :=
    if path.isEmpty then malformed
    else do
      let limit ← readCount entry "limit is not an integer" limit
      let window ← readWindow entry window
      match weight with
      | none => return { path := String.ofList path, limit, window }
      | some weight =>
        let weight ← readCount entry "weight is not an integer" weight
        return { path := String.ofList path, limit, window, weight }
  match (Text.splitChars ':' entry).map Text.trimChars with
  | [path, limit, window] => make path limit window none
  | [path, limit, window, weight] => make path limit window (some weight)
  | _ => malformed

/-- The limits of a list that are not empty, without the blanks around them. -/
def entries (list : List Char) : List (List Char) :=
  ((Text.splitChars ',' list).map Text.trimChars).filter (!·.isEmpty)

/-- Reads a list of limits. -/
def readAll (list : String) : Except Halt (List RateLimit) := (entries list.toList).mapM readEntry

end RateLimit

end BookFeed
