import BookFeed.Json.Read
import BookFeed.Binary64.Text

/-!
# The numbers of JSON texts

A number without a fraction and an exponent is an integer if it lies between `-2 ^ 63` and
`2 ^ 64 - 1`; negative zero is none. Every other number is a `Binary64`.

Such a number is computed from the digits that fit 64 bits, later ones only count as places, and one
multiplication or division by a power of ten. That is near, but not always nearest, to what the
text says. A number that grows beyond the finite ones has no value.
-/

namespace BookFeed.Json

/-- The value of a JSON number. -/
inductive Number where
  | integer (value : Int)
  | float (value : Binary64)
deriving DecidableEq

/-- Takes digits in while the value stays below `2 ^ 64`, and gives the digits left over. -/
def takeDigits : Nat → List Char → Nat × List Char
  | n, [] => (n, [])
  | n, c :: rest =>
    let next := n * 10 + (c.toNat - '0'.toNat)
    if next < UInt64.size then takeDigits next rest else (n, c :: rest)

/-- The number nearest to `10 ^ k`, for `k` up to 308. -/
def floatPower (k : Nat) : Binary64 := Binary64.ofNat (powerOfTen k)

/-- `x * 10 ^ exponent`; `none` if that is not finite. Exponents beyond the table of powers are
worked off by dividing by the largest power. -/
def scalePower : Nat → Binary64 → Int → Option Binary64
  | 0, x, _ => some x
  | fuel + 1, x, exponent =>
    if exponent.natAbs ≤ 308 then
      if 0 ≤ exponent then
        let y := x.mul (floatPower exponent.natAbs)
        if y.isFinite then some y else none
      else some (x.div (floatPower exponent.natAbs))
    else if x.isZero then some x
    else if 0 ≤ exponent then none
    else scalePower fuel (x.div (floatPower 308)) (exponent + 308)

/-- The value of `± significand * 10 ^ exponent`. -/
def floatOf (negative : Bool) (significand : Nat) (exponent : Int) : Option Binary64 :=
  (scalePower 4 (Binary64.ofNat significand) exponent).map fun x => if negative then x.neg else x

/-- The exponent that ends a number: nothing, or a mark, a sign and digits. -/
def exponentValue : List Char → Int
  | _ :: '+' :: digits => Binary64.digitsValue digits
  | _ :: '-' :: digits => -(Binary64.digitsValue digits : Int)
  | _ :: digits => Binary64.digitsValue digits
  | [] => 0

/-- The value of a number without its sign. -/
def unsignedValue? (negative : Bool) (text : List Char) : Option Number :=
  let whole := text.takeWhile Char.isDigit
  let rest := text.dropWhile Char.isDigit
  let (n, extra) := takeDigits 0 whole
  match rest with
  | [] =>
    if !extra.isEmpty then (floatOf negative n extra.length).map .float
    else if !negative then some (.integer n)
    else if n = 0 ∨ Binary64.signBit < n then some (.float (Binary64.ofNat n).neg)
    else some (.integer (-n))
  | c :: tail =>
    let (fraction, exponent) :=
      if c = '.' then (tail.takeWhile Char.isDigit, tail.dropWhile Char.isDigit)
      else ([], c :: tail)
    let (n, spare) := takeDigits n fraction
    let places : Int := (extra.length : Int) - (fraction.length - spare.length : Nat)
    (floatOf negative n (places + exponentValue exponent)).map .float

/-- The value of a number as it is spelled. -/
def numberValue? : List Char → Option Number
  | '-' :: text => unsignedValue? true text
  | text => unsignedValue? false text

end BookFeed.Json
