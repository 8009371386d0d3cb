import BookFeed.Binary64.Basic
import BookFeed.PowerOfTen

/-!
# Binary64 numbers as text

A finite number is written with the fewest digits that read back to it, and of those with the
nearest ones (`shortest`). `positional` never uses an exponent, and of two equally near forms it
takes the greater one; `compact` is the form of JSON texts, positional from `1e-5` up to `1e16` and
always with a fraction or an exponent, and takes the even one.

`read?` reads a sign, digits with an optional point and an optional exponent, or the name of
infinity or of the value that is no number, and gives the nearest number.
-/

namespace BookFeed.Binary64

/-! ## The shortest digits -/

/-- The number of digits before the point of `num / den`; for a number below one, minus the number
of zeros after the point. -/
def leadingPlace (num den : Nat) : Int :=
  if den ≤ num then (Nat.toDigits 10 (num / den)).length
  else
    let rec zeros : Nat → Nat → Nat → Int
      | 0, _, count => -(count : Int)
      | fuel + 1, n, count =>
        if den ≤ n * 10 then -(count : Int) else zeros fuel (n * 10) (count + 1)
    zeros 400 num 0

/-- The numbers that round to a given one: from `low / den` to `high / den`, with both ends where
`closed`. The number itself is `mid / den`. -/
structure Interval where
  low : Nat
  mid : Nat
  high : Nat
  den : Nat
  closed : Bool

/-- The numbers that round to the finite positive number `x`. -/
def interval (x : Binary64) : Interval :=
  let m := x.significand
  let p := x.power - 2
  let up := p.toNat
  let below := if m = hiddenBit ∧ x.power ≠ -1074 then 1 else 2
  ⟨(4 * m - below) <<< up, (4 * m) <<< up, (4 * m + 2) <<< up, 1 <<< (-p).toNat, m % 2 = 0⟩

/-- `n * 10 ^ place` lies in the interval. -/
def Interval.holds (i : Interval) (n : Nat) (place : Int) : Bool :=
  let v := n * powerOfTen place.toNat * i.den
  let scale := powerOfTen (-place).toNat
  if i.closed then i.low * scale ≤ v && v ≤ i.high * scale
  else i.low * scale < v && v < i.high * scale

/-- The best number of the form `n * 10 ^ place` in the interval, if there is one: the neighbour of
the middle that is nearer. `round` rounds a quotient to the nearest whole number, and so settles
which of two equally near ones it is. -/
def Interval.at? (round : Nat → Nat → Nat) (i : Interval) (place : Int) : Option Nat :=
  let num := i.mid * powerOfTen (-place).toNat
  let den := i.den * powerOfTen place.toNat
  let below := num / den
  let nearest := round num den
  let other := if nearest = below then below + 1 else below
  if nearest ≠ 0 ∧ i.holds nearest place then some nearest
  else if other ≠ 0 ∧ i.holds other place then some other
  else none

/-- Tries ever finer places. -/
def Interval.search (round : Nat → Nat → Nat) (i : Interval) : Nat → Int → Nat × Int
  | 0, place => (i.mid * powerOfTen (-place).toNat / (i.den * powerOfTen place.toNat), place)
  | fuel + 1, place =>
    match i.at? round place with
    | some n => (n, place)
    | none => i.search round fuel (place - 1)

/-- Moves trailing zeros into the place. -/
def stripZeros : Nat → Nat × Int → Nat × Int
  | 0, r => r
  | fuel + 1, (n, place) =>
    if n ≠ 0 ∧ n % 10 = 0 then stripZeros fuel (n / 10, place + 1) else (n, place)

/-- The fewest digits that read back to the finite number `x`: its magnitude is
`digits * 10 ^ place`, up to rounding, and `round` settles ties. -/
def shortest (round : Nat → Nat → Nat) (x : Binary64) : Nat × Int :=
  if x.isZero then (0, 0)
  else
    let i := x.interval
    stripZeros 20 (i.search round 17 (leadingPlace i.mid i.den - 1))

/-! ## Writing -/

/-- Digits with the point `place` digits from the right, or zeros in its place. -/
def point (digits : List Char) (place : Int) : List Char × List Char :=
  if 0 ≤ place then (digits ++ List.replicate place.toNat '0', [])
  else
    let fraction := (-place).toNat
    if fraction < digits.length then
      (digits.take (digits.length - fraction), digits.drop (digits.length - fraction))
    else (['0'], List.replicate (fraction - digits.length) '0' ++ digits)

/-- The number without an exponent. -/
def positional (x : Binary64) : String :=
  if x.isNaN then "NaN"
  else
    let sign := if x.isNegative then "-" else ""
    if !x.isFinite then sign ++ "inf"
    else
      let (digits, place) := x.shortest roundHalfUp
      let (whole, fraction) := point (Nat.toDigits 10 digits) place
      sign ++ String.ofList (if fraction.isEmpty then whole else whole ++ '.' :: fraction)

/-- The finite number as JSON texts write it. -/
def compact (x : Binary64) : String :=
  let sign := if x.isNegative then "-" else ""
  let (n, place) := x.shortest roundHalfEven
  let digits := Nat.toDigits 10 n
  let lead : Int := digits.length + place
  if x.isZero then sign ++ "0.0"
  else if -5 < lead ∧ lead ≤ 16 then
    let (whole, fraction) := point digits place
    sign ++ String.ofList (whole ++ '.' :: if fraction.isEmpty then ['0'] else fraction)
  else
    let head := match digits with
      | [d] => [d]
      | d :: rest => d :: '.' :: rest
      | [] => []
    sign ++ String.ofList head ++ "e" ++ toString (lead - 1)

/-! ## Reading -/

/-- The number nearest to `± digits * 10 ^ exponent`. Beyond four hundred places on either side the
answer is infinity or zero, so the power of ten is computed only between. -/
def ofDecimal (negative : Bool) (digits : Nat) (exponent : Int) : Binary64 :=
  let lead : Int := (Nat.toDigits 10 digits).length + exponent
  if digits = 0 ∨ lead < -400 then ofMagnitude negative 0
  else if 400 < lead then ofMagnitude negative infinityBits
  else ofRatio negative (digits * powerOfTen exponent.toNat) (powerOfTen (-exponent).toNat)

def digitsValue (cs : List Char) : Nat := cs.foldl (fun n c => n * 10 + (c.toNat - '0'.toNat)) 0

/-- Reads an optional exponent, which ends the text. -/
def readExponent? : List Char → Option Int
  | [] => some 0
  | c :: rest =>
    if c = 'e' ∨ c = 'E' then
      let (negative, digits) := match rest with
        | '-' :: ds => (true, ds)
        | '+' :: ds => (false, ds)
        | ds => (false, ds)
      if digits.isEmpty ∨ !digits.all Char.isDigit then none
      else some (if negative then -(digitsValue digits : Int) else digitsValue digits)
    else none

/-- Reads a number without a sign. -/
def readUnsigned? (negative : Bool) (cs : List Char) : Option Binary64 :=
  let name := cs.map Char.toLower
  if name = "inf".toList ∨ name = "infinity".toList then some (ofMagnitude negative infinityBits)
  else if name = "nan".toList then some nan
  else
    let whole := cs.takeWhile Char.isDigit
    let rest := cs.dropWhile Char.isDigit
    let (fraction, rest) := match rest with
      | '.' :: rest => (rest.takeWhile Char.isDigit, rest.dropWhile Char.isDigit)
      | rest => ([], rest)
    if whole.isEmpty ∧ fraction.isEmpty then none
    else (readExponent? rest).map fun e =>
      ofDecimal negative (digitsValue (whole ++ fraction)) (e - fraction.length)

def read? (s : String) : Option Binary64 :=
  match s.toList with
  | '-' :: rest => readUnsigned? true rest
  | '+' :: rest => readUnsigned? false rest
  | cs => readUnsigned? false cs

end BookFeed.Binary64
