/-!
# Text in a query

The form of `application/x-www-form-urlencoded`: letters and digits of ASCII and the four marks of
`isPlain` stand for themselves, a space is a plus, and every other byte of the text in UTF-8 is a
percent sign and two digits.
-/

namespace BookFeed.Text.Urlencoded

/-- The byte stands for itself. -/
def isPlain (b : UInt8) : Bool :=
  let c := Char.ofNat b.toNat
  c.isAlphanum || c = '*' || c = '-' || c = '.' || c = '_'

def hexDigit (n : Nat) : Char := Char.ofNat (if n < 10 then 0x30 + n else 0x37 + n)

/-- How a byte is written. -/
def encodeByte (b : UInt8) : List Char :=
  if isPlain b then [Char.ofNat b.toNat]
  else if b = 0x20 then ['+']
  else ['%', hexDigit (b.toNat / 16), hexDigit (b.toNat % 16)]

def encode (s : String) : String := String.ofList (s.toByteArray.toList.flatMap encodeByte)

end BookFeed.Text.Urlencoded
