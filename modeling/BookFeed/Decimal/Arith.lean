import BookFeed.Decimal.Basic

/-!
# Decimal arithmetic

Every operation gives the exact result rounded by `Decimal.fit?`, and `none` where the result is
too large. What is left to settle is how a result is spelled (a zero that was computed never has a
sign):

* a sum keeps the larger scale, except that adding zero gives back the other term as it is spelled;
* a product has the sum of the scales, except that a product with zero is the plain `0`;
* a quotient that comes out even at the difference of the scales keeps that scale. Otherwise its
  digits are produced in groups of up to nine (`Quotient.step`), and of the trailing zeros that
  the last group may bring some are taken away again (`dropZeros`).
-/

namespace BookFeed.Decimal

/-- The sum of two numbers whose mantissas are aligned to the larger of the two scales. -/
def addAligned (a b : Decimal) : Option Decimal :=
  let scale := max a.scale b.scale
  let sum :=
    a.mantissa * powerOfTen (scale - a.scale) + b.mantissa * powerOfTen (scale - b.scale)
  fit? (decide (sum < 0)) sum.natAbs scale

def add? (a b : Decimal) : Option Decimal :=
  if a.isZero then some b else if b.isZero then some a else addAligned a b

def sub? (a b : Decimal) : Option Decimal := add? a b.neg

def mul? (a b : Decimal) : Option Decimal :=
  let product := a.mantissa * b.mantissa
  if product = 0 then some zero
  else fit? (decide (product < 0)) product.natAbs (a.scale + b.scale)

/-- The sum of a list, from the left and starting at zero. -/
def sum? (ds : List Decimal) : Option Decimal := ds.foldlM add? zero

/-! ## Division -/

/-- Division in progress: `quotient + remainder / divisor`, at `scale` fractional digits. A
negative scale stands for zeros still to be written before the point. -/
structure Quotient where
  quotient : Nat
  remainder : Nat
  scale : Int
deriving DecidableEq

/-- The largest group of at most `limit` digits for which the quotient still fits. -/
def groupSize (quotient : Nat) : Nat → Nat
  | 0 => 0
  | limit + 1 =>
    if quotient * powerOfTen (limit + 1) < bound then limit + 1 else groupSize quotient limit

/-- Writes `digits` more digits of the quotient. -/
def Quotient.step (divisor digits : Nat) (s : Quotient) : Quotient :=
  let scaled := s.remainder * powerOfTen digits
  ⟨s.quotient * powerOfTen digits + scaled / divisor, scaled % divisor, s.scale + digits⟩

/-- The quotient rounded to its last digit, or to the digit before it where that rounding does
not fit. -/
def Quotient.round (divisor : Nat) (s : Quotient) : Option (Nat × Int) :=
  let q := roundHalfEven (s.quotient * divisor + s.remainder) divisor
  if q < bound then some (q, s.scale)
  else if s.scale < 1 then none
  else some (roundHalfEven (s.quotient * divisor + s.remainder) (divisor * 10), s.scale - 1)

/-- Produces digits until the division comes out even or no further digit fits. The answer tells
whether digits were produced for a remainder. `fuel` bounds the number of groups; between the
scales -28 and 28 there are at most 57. -/
def Quotient.run (divisor : Nat) : Nat → Bool → Quotient → Option (Nat × Int × Bool)
  | 0, _, _ => none
  | fuel + 1, extended, s =>
    if bound ≤ s.quotient then (s.round divisor).map fun (q, k) => (q, k, extended)
    else if s.remainder = 0 then
      if 0 ≤ s.scale then some (s.quotient, s.scale, extended)
      else if s.quotient * powerOfTen (min 9 s.scale.natAbs) < bound then
        run divisor fuel extended (s.step divisor (min 9 s.scale.natAbs))
      else none
    else
      match groupSize s.quotient (min 9 (28 - s.scale).toNat) with
      | 0 => if s.scale < 0 then none else (s.round divisor).map fun (q, k) => (q, k, true)
      | digits + 1 => run divisor fuel true (s.step divisor (digits + 1))

/-- Divides by `10 ^ digits` where that is exact and so many fractional digits are there. -/
def dropZeros (digits : Nat) (qk : Nat × Nat) : Nat × Nat :=
  if digits ≤ qk.2 ∧ qk.1 % powerOfTen digits = 0 then
    (qk.1 / powerOfTen digits, qk.2 - digits)
  else qk

/-- Takes away groups of eight trailing zeros while the last 32 bits are zero. -/
def dropEights : Nat → Nat × Nat → Nat × Nat
  | 0, qk => qk
  | fuel + 1, qk =>
    if qk.1 % UInt32.size = 0 ∧ 8 ≤ qk.2 ∧ qk.1 % powerOfTen 8 = 0 then
      dropEights fuel (qk.1 / powerOfTen 8, qk.2 - 8)
    else qk

/-- Takes away trailing zeros in groups of eight, four, two and one, the last three at most once
each. -/
def tidy (q k : Nat) : Nat × Nat :=
  dropZeros 1 (dropZeros 2 (dropZeros 4 (dropEights 3 (q, k))))

/-- The quotient of two numbers; `none` for a zero divisor or a quotient that is too large. -/
def div? (a b : Decimal) : Option Decimal :=
  if b.isZero then none
  else if a.isZero then some zero
  else
    let n := a.magnitude
    let d := b.magnitude
    match Quotient.run d 64 false ⟨n / d, n % d, (a.scale : Int) - b.scale⟩ with
    | none => none
    | some (q, k, extended) =>
      let (q, k) := if extended then tidy q k.toNat else (q, k.toNat)
      mk? (signed (a.negative != b.negative) q) k

/-! ## Whole parts -/

/-- The largest integer that is at most the number. -/
def floor (a : Decimal) : Int := Int.fdiv a.mantissa (powerOfTen a.scale)

end BookFeed.Decimal
