import BookFeed.PowerOfTen
import BookFeed.Rounding

/-!
# Decimals of 96 bits

A decimal is a sign, a `magnitude` and a count `scale` of fractional digits: its value is
`mantissa / 10 ^ scale`, where `mantissa` is the magnitude with its sign. The magnitude stays below
`2 ^ 96` and the scale at most 28, which is what an exchange price or amount may need.

Two decimals may spell one number (`1.5` and `1.50`, or `0` and `-0`). `compare` is the numeric
order, `=` tells spellings apart. `mk?` gives zero no sign, and with it all arithmetic does. `fit?`
rounds an exact result to the largest scale at which the magnitude fits, and a half goes to the even
neighbour.
-/

namespace BookFeed

/-- The bound on magnitudes, `2 ^ 96`. -/
abbrev Decimal.bound : Nat := 79228162514264337593543950336

/-- The most fractional digits a decimal may have. -/
abbrev Decimal.maxScale : Nat := 28

/-- The number `± magnitude / 10 ^ scale`, together with its spelling. -/
structure Decimal where
  negative : Bool := false
  magnitude : Nat
  scale : Nat
  magnitude_lt : magnitude < Decimal.bound := by decide
  scale_le : scale ≤ Decimal.maxScale := by decide
deriving DecidableEq

namespace Decimal

/-- The signed integer of this sign and magnitude. -/
def signed (negative : Bool) (n : Nat) : Int := if negative then -(n : Int) else n

/-- The magnitude with its sign: the number is `mantissa / 10 ^ scale`. -/
def mantissa (a : Decimal) : Int := signed a.negative a.magnitude

def zero : Decimal := { magnitude := 0, scale := 0 }

instance : Inhabited Decimal := ⟨zero⟩

/-- The decimal with this mantissa and scale, if there is one. -/
def mk? (mantissa : Int) (scale : Nat) : Option Decimal :=
  if h : mantissa.natAbs < bound ∧ scale ≤ maxScale then
    some ⟨decide (mantissa < 0), mantissa.natAbs, scale, h.1, h.2⟩
  else none

/-- A 64-bit count as a decimal without fractional digits. -/
def ofUInt64 (n : UInt64) : Decimal :=
  { magnitude := n.toNat
    scale := 0
    magnitude_lt := by
      have := n.toNat_lt
      simp only [bound]
      omega }

def ofNat (n : Nat) (h : n < bound := by decide) : Decimal :=
  { magnitude := n, scale := 0, magnitude_lt := h }

/-- The opposite number; that of zero has no sign. -/
def neg (a : Decimal) : Decimal := { a with negative := !a.negative && a.magnitude != 0 }

/-! ## The numeric order -/

/-- The mantissa that `a` has when it is written with `b.scale` more fractional digits. Two
decimals compare as these integers do. -/
def scaledBy (a b : Decimal) : Int := a.mantissa * powerOfTen b.scale

/-- The numeric order: it does not see how a number is spelled. -/
protected def compare (a b : Decimal) : Ordering := compare (a.scaledBy b) (b.scaledBy a)

instance : Ord Decimal := ⟨Decimal.compare⟩

/-- `a` and `b` are the same number. -/
def numEq (a b : Decimal) : Bool := a.scaledBy b == b.scaledBy a

def isPositive (a : Decimal) : Bool := decide (0 < a.mantissa)

def isZero (a : Decimal) : Bool := a.magnitude == 0

def isNonneg (a : Decimal) : Bool := decide (0 ≤ a.mantissa)

/-! ## Rounding -/

/-- Looks for the least number of digits to drop, starting at `drop` and trying at most `more`
further ones. -/
def fitFrom (negative : Bool) (n scale drop : Nat) : Nat → Option Decimal
  | 0 => mk? (signed negative (roundHalfEven n (powerOfTen drop))) (scale - drop)
  | more + 1 =>
    match mk? (signed negative (roundHalfEven n (powerOfTen drop))) (scale - drop) with
    | some d => some d
    | none => fitFrom negative n scale (drop + 1) more

/-- The exact number `± n / 10 ^ scale`, rounded to the largest scale of at most 28 at which its
magnitude fits; `none` if not even its whole part does. -/
def fit? (negative : Bool) (n scale : Nat) : Option Decimal :=
  fitFrom negative n scale (scale - maxScale) (scale - (scale - maxScale))

end Decimal

end BookFeed
