import BookFeed.Decimal.Arith

/-!
# Decimals as text

`Decimal.toText` writes a decimal with exactly its scale, positionally.

`Decimal.read` reads a sign, digits with at most one point and an optional exponent. Digits may be
separated by underscores once the first one has been seen. The reader keeps as many fractional
digits as fit: at the first one too many it rounds, a half away from zero, and of what follows it
only checks that it is digits and separators. A whole part that does not fit is an error.

A zero that is read has no sign, with one exception: a negative number that an exponent brings below
the last place becomes `-0`.
-/

namespace BookFeed.Decimal

/-! ## Writing -/

/-- The digits of `n`, at least `width` of them. -/
def padded (width n : Nat) : List Char :=
  let digits := Nat.toDigits 10 n
  List.replicate (width - digits.length) '0' ++ digits

/-- The decimal as characters: the whole part, and the fraction if the scale is not zero. -/
def toChars (a : Decimal) : List Char :=
  let n := a.magnitude
  let sign := if a.negative then ['-'] else []
  let whole := Nat.toDigits 10 (n / powerOfTen a.scale)
  if a.scale = 0 then sign ++ whole
  else sign ++ whole ++ '.' :: padded a.scale (n % powerOfTen a.scale)

def toText (a : Decimal) : String := String.ofList a.toChars

/-! ## Reading -/

/-- Why a text is no decimal. -/
inductive ReadError where
  | empty
  | noDigits
  | leadingSeparator
  | secondPoint
  | unknownCharacter
  | tooManyDigits
  | tooLargeAfterRounding
  | badExponent
  | tooLarge
  | scaleTooLarge (scale : Nat)
deriving DecidableEq, Repr

def ReadError.message : ReadError → String
  | empty => "Invalid decimal: empty"
  | noDigits => "Invalid decimal: no digits found"
  | leadingSeparator => "Invalid decimal: must start lead with a number"
  | secondPoint => "Invalid decimal: two decimal points"
  | unknownCharacter => "Invalid decimal: unknown character"
  | tooManyDigits => "Invalid decimal: overflow from too many digits"
  | tooLargeAfterRounding => "Invalid decimal: overflow from mantissa after rounding"
  | badExponent => "Failed to parse"
  | tooLarge => "Number exceeds maximum value that can be represented."
  | scaleTooLarge scale =>
    "Scale exceeds the maximum precision allowed: " ++ toString scale ++ " > " ++ toString maxScale

/-- What has been read of a number. -/
structure Partial where
  negative : Bool
  mantissa : Nat
  scale : Nat
  /-- a point has been seen -/
  point : Bool
  /-- a digit has been seen -/
  digit : Bool

def digitValue? (c : Char) : Option Nat :=
  if '0' ≤ c ∧ c ≤ '9' then some (c.toNat - '0'.toNat) else none

/-- Why this character may not stand here. -/
def rejected (c : Char) : ReadError :=
  if c = '.' then .secondPoint else if c = '_' then .leadingSeparator else .unknownCharacter

/-- The number read so far, as a decimal. -/
def Partial.finish (p : Partial) : Except ReadError Decimal :=
  if p.digit then
    match mk? (signed p.negative p.mantissa) p.scale with
    | some d => .ok d
    | none => .error .tooManyDigits
  else .error .noDigits

/-- Rounds on `d`, the first digit that no longer fits: five or more rounds away from zero. -/
def Partial.roundOn (p : Partial) (d : Nat) : Except ReadError Decimal :=
  if d < 5 then p.finish
  else if p.mantissa + 1 < bound then { p with mantissa := p.mantissa + 1 }.finish
  else if p.scale = 0 then .error .tooLargeAfterRounding
  else { p with mantissa := (p.mantissa + 5) / 10, scale := p.scale - 1 }.finish

/-- Checks what follows the digit that was rounded on: digits and separators. -/
def checkRest (cs : List Char) : Except ReadError Unit :=
  match cs.find? fun c => (digitValue? c).isNone && c != '_' with
  | some c => .error (rejected c)
  | none => .ok ()

/-- The digits before the last one fill a 64-bit word. -/
def Partial.isLong (p : Partial) : Bool := decide (1844674407370954906 ≤ p.mantissa / 10)

/-- Reads on where no further fractional digit is kept. In a long number, separators are skipped on
the way to the digit that decides the rounding; in a short one, a separator stands for the digit
zero, as a second point does in both. -/
def Partial.readLast (p : Partial) : List Char → Except ReadError Decimal
  | [] => p.finish
  | c :: rest =>
    match digitValue? c with
    | some d => do checkRest rest; p.roundOn d
    | none =>
      if c = '_' ∧ p.isLong then
        match rest.dropWhile (· == '_') with
        | [] => p.finish
        | c :: rest =>
          match digitValue? c with
          | some d => do checkRest rest; p.roundOn d
          | none => .error (rejected c)
      else if c = '_' ∨ c = '.' then do checkRest rest; p.finish
      else .error (rejected c)

/-- Reads the characters after the sign. -/
def readDigits (p : Partial) : List Char → Except ReadError Decimal
  | [] => p.finish
  | c :: rest =>
    if p.point ∧ maxScale ≤ p.scale then p.readLast (c :: rest)
    else
      match digitValue? c with
      | some d =>
        let mantissa := p.mantissa * 10 + d
        if mantissa < bound then
          readDigits { p with
            mantissa, digit := true, scale := if p.point then p.scale + 1 else 0 } rest
        else if p.point then do checkRest rest; p.roundOn d
        else .error .tooManyDigits
      | none =>
        if c = '.' ∧ !p.point then readDigits { p with point := true } rest
        else if c = '_' ∧ p.digit then readDigits p rest
        else .error (rejected c)

/-- Reads a number without an exponent. -/
def readPlain : List Char → Except ReadError Decimal
  | [] => .error .empty
  | '-' :: rest => readDigits ⟨true, 0, 0, false, false⟩ rest
  | '+' :: rest => readDigits ⟨false, 0, 0, false, false⟩ rest
  | cs => readDigits ⟨false, 0, 0, false, false⟩ cs

/-- A natural number below `limit` in decimal digits, with an optional plus sign. -/
def readNat? (limit : Nat) (cs : List Char) : Option Nat :=
  let digits := match cs with | '+' :: rest => rest | _ => cs
  if digits.isEmpty then none
  else do
    let n ← digits.foldlM (fun n c => (digitValue? c).map (n * 10 + ·)) 0
    if n < limit then some n else none

/-- Takes away trailing fractional zeros. -/
def stripZeros : Nat → Decimal → Decimal
  | 0, a => a
  | fuel + 1, a =>
    if 0 < a.scale ∧ a.mantissa % 10 = 0 then
      match mk? (a.mantissa / 10) (a.scale - 1) with
      | some b => stripZeros fuel b
      | none => a
    else a

/-- `a * 10 ^ e`: the exponent moves the point first, and only then adds zeros to the mantissa. -/
def shiftUp (a : Decimal) (e : Nat) : Except ReadError Decimal :=
  if e ≤ a.scale then
    .ok { a with scale := a.scale - e, scale_le := Nat.le_trans (Nat.sub_le ..) a.scale_le }
  else if maxScale < e then .error (.scaleTooLarge e)
  else
    match fit? a.negative (a.magnitude * powerOfTen e) a.scale with
    | some b => .ok (stripZeros maxScale b)
    | none => .error .tooLarge

/-- `a / 10 ^ e`, rounded to 28 fractional digits with a half away from zero. The sign stays even
where only zeros are left. -/
def shiftDown (a : Decimal) (e : Nat) : Except ReadError Decimal :=
  if maxScale < e then .error (.scaleTooLarge e)
  else
    let dropped := a.scale + e - maxScale
    .ok { a with
      magnitude := roundHalfUp a.magnitude (powerOfTen dropped)
      scale := a.scale + e - dropped
      magnitude_lt :=
        Nat.lt_of_le_of_lt (roundHalfUp_le _ (powerOfTen_pos dropped)) a.magnitude_lt
      scale_le := by omega }

def isExponentMark (c : Char) : Bool := c == 'e' || c == 'E'

/-- Reads a number, with or without an exponent. -/
def readChars (cs : List Char) : Except ReadError Decimal :=
  match cs.dropWhile (!isExponentMark ·) with
  | [] => readPlain cs
  | _ :: exponent => do
    let base ← readPlain (cs.takeWhile (!isExponentMark ·))
    match exponent with
    | '-' :: digits =>
      match readNat? UInt32.size digits with
      | some e => shiftDown base e
      | none => throw .badExponent
    | digits =>
      match readNat? UInt32.size digits with
      | some e => shiftUp base e
      | none => throw .badExponent

def read (s : String) : Except ReadError Decimal := readChars s.toList

def read? (s : String) : Option Decimal := (read s).toOption

end BookFeed.Decimal
