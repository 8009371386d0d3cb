import BookFeed.Rounding

/-!
# Binary64 numbers

Double precision numbers as their 64 bits, with exact arithmetic on what the bits mean: a finite
number is `± significand * 2 ^ power`. `ofRatio` is the one place where a result is rounded, to the
nearest number and a half to the even significand; `mul`, `div` and `ofNat` go through it.

`totalKey` orders all bit patterns: where two numbers differ it is the numeric order, and it puts
`-0` before `0`.
-/

namespace BookFeed

/-- A double precision number. -/
structure Binary64 where
  bits : UInt64
deriving DecidableEq

namespace Binary64

instance : Inhabited Binary64 := ⟨⟨0⟩⟩

/-! ## What the bits say -/

/-- The bit of the sign. -/
abbrev signBit : Nat := 0x8000000000000000

/-- The bit above those that are stored of a significand. -/
abbrev hiddenBit : Nat := 0x10000000000000

def isNegative (x : Binary64) : Bool := decide (signBit ≤ x.bits.toNat)

/-- The bits without the sign. -/
def magnitude (x : Binary64) : Nat := x.bits.toNat % signBit

/-- The bits of infinity: those above are not numbers. -/
abbrev infinityBits : Nat := 2047 * hiddenBit

def isFinite (x : Binary64) : Bool := decide (x.magnitude < infinityBits)

def isNaN (x : Binary64) : Bool := decide (infinityBits < x.magnitude)

def isZero (x : Binary64) : Bool := x.magnitude == 0

/-- The significand of a finite number, an integer of 53 bits at most. -/
def significand (x : Binary64) : Nat :=
  if x.magnitude < hiddenBit then x.magnitude else hiddenBit + x.magnitude % hiddenBit

/-- The power of two by which the significand counts. -/
def power (x : Binary64) : Int :=
  if x.magnitude < hiddenBit then -1074 else (x.magnitude / hiddenBit : Nat) - 1075

/-- The magnitude of a finite number as a quotient. -/
def ratio (x : Binary64) : Nat × Nat :=
  (x.significand <<< x.power.toNat, 1 <<< (-x.power).toNat)

/-- The position in the total order of all bit patterns. -/
def totalKey (x : Binary64) : Int :=
  if x.isNegative then -1 - (x.magnitude : Int) else x.magnitude

/-- A finite number that is not below zero. Negative zero is not below zero. -/
def isFiniteNonneg (x : Binary64) : Bool := x.isFinite && (!x.isNegative || x.isZero)

/-! ## Rounding to the nearest number -/

/-- The number with this sign whose other bits are `magnitude`. -/
def ofMagnitude (negative : Bool) (magnitude : Nat) : Binary64 :=
  ⟨UInt64.ofNat (if negative then signBit + magnitude else magnitude)⟩

/-- The power of two at which `num / den` has 53 significant bits, or -1074 if that is more. -/
def powerFor (num den : Nat) : Int :=
  let guess : Int := (Nat.log2 num : Int) - Nat.log2 den - 52
  let scaled := (num <<< (-guess).toNat) / (den <<< guess.toNat)
  max (-1074) (if scaled < hiddenBit then guess - 1 else guess)

/-- The number nearest to `± num / den`, infinity if that is out of range. -/
def ofRatio (negative : Bool) (num den : Nat) : Binary64 :=
  if num = 0 then ofMagnitude negative 0
  else
    let p := powerFor num den
    let q := roundHalfEven (num <<< (-p).toNat) (den <<< p.toNat)
    ofMagnitude negative (min infinityBits ((p + 1074).toNat * hiddenBit + q))

def ofNat (n : Nat) : Binary64 := ofRatio false n 1

def ofInt (n : Int) : Binary64 := ofRatio (decide (n < 0)) n.natAbs 1

def neg (x : Binary64) : Binary64 := ofMagnitude (!x.isNegative) x.magnitude

/-- What is not a number. -/
def nan : Binary64 := ofMagnitude false (infinityBits + hiddenBit / 2)

/-- The product. Infinity times zero is not a number. -/
def mul (x y : Binary64) : Binary64 :=
  let negative := x.isNegative != y.isNegative
  if x.isNaN || y.isNaN then nan
  else if x.isFinite && y.isFinite then
    ofRatio negative (x.ratio.1 * y.ratio.1) (x.ratio.2 * y.ratio.2)
  else if x.isZero || y.isZero then nan
  else ofMagnitude negative infinityBits

/-- The quotient of finite numbers, the second not zero. -/
def div (x y : Binary64) : Binary64 :=
  ofRatio (x.isNegative != y.isNegative) (x.ratio.1 * y.ratio.2) (x.ratio.2 * y.ratio.1)

/-- The nearest integer as a 64-bit count: a half rounds up, numbers that are out of range give the
nearest end of the range, and what is not a number gives zero. -/
def toUInt64 (x : Binary64) : UInt64 :=
  if x.isNaN then 0
  else if x.isNegative then 0
  else if !x.isFinite then UInt64.ofNat (UInt64.size - 1)
  else UInt64.ofNat (min (UInt64.size - 1) (roundHalfUp x.ratio.1 x.ratio.2))

end Binary64

end BookFeed
