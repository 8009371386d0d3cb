/-!
# Text from bytes

`decode` reads bytes as UTF-8 and always has a result: where the bytes cannot go on to be a
character, what was read of it is replaced by one U+FFFD, and reading goes on at the byte that did
not fit.
-/

namespace BookFeed.Text.Utf8

/-- How a character goes on after its first byte. -/
structure Lead where
  /-- what the first byte tells of the character's number -/
  value : Nat
  /-- the least and the greatest value of each byte that follows -/
  rest : List (Nat × Nat)

/-- The least and the greatest of the bytes that follow in general. -/
def tail : Nat × Nat := (0x80, 0xbf)

/-- What a first byte tells; some bytes never come first. -/
def lead? (b : Nat) : Option Lead :=
  if b < 0x80 then some ⟨b, []⟩
  else if 0xc2 ≤ b ∧ b ≤ 0xdf then some ⟨b - 0xc0, [tail]⟩
  else if b = 0xe0 then some ⟨0, [(0xa0, 0xbf), tail]⟩
  else if b = 0xed then some ⟨0xd, [(0x80, 0x9f), tail]⟩
  else if 0xe1 ≤ b ∧ b ≤ 0xef then some ⟨b - 0xe0, [tail, tail]⟩
  else if b = 0xf0 then some ⟨0, [(0x90, 0xbf), tail, tail]⟩
  else if 0xf1 ≤ b ∧ b ≤ 0xf3 then some ⟨b - 0xf0, [tail, tail, tail]⟩
  else if b = 0xf4 then some ⟨4, [(0x80, 0x8f), tail, tail]⟩
  else none

/-- Reads the bytes after the first, as long as they fit. Answers the number of the character, if
all of them did, and the bytes that remain. -/
def follow : List (Nat × Nat) → Nat → List Nat → Option Nat × List Nat
  | [], value, bytes => (some value, bytes)
  | _ :: _, _, [] => (none, [])
  | (lo, hi) :: ranges, value, b :: bytes =>
    if lo ≤ b ∧ b ≤ hi then follow ranges (value * 64 + (b - 0x80)) bytes else (none, b :: bytes)

theorem length_follow (ranges : List (Nat × Nat)) (value : Nat) (bytes : List Nat) :
    (follow ranges value bytes).2.length ≤ bytes.length := by
  fun_induction follow ranges value bytes with
  | case1 => exact Nat.le_refl _
  | case2 => exact Nat.le_refl _
  | case3 _ _ _ _ _ _ _ ih => exact Nat.le_succ_of_le ih
  | case4 => exact Nat.le_refl _

/-- What stands for bytes that are no character. -/
def replacement : Char := '\ufffd'

/-- The text that bytes mean. -/
def decodeChars : List Nat → List Char
  | [] => []
  | b :: bytes =>
    match lead? b with
    | none => replacement :: decodeChars bytes
    | some lead =>
      let read := follow lead.rest lead.value bytes
      (read.1.elim replacement Char.ofNat) :: decodeChars read.2
termination_by bytes => bytes.length
decreasing_by
  · simp
  · have := length_follow lead.rest lead.value bytes
    simp only [List.length_cons]
    omega

def decode (bytes : List UInt8) : String := String.ofList (decodeChars (bytes.map (·.toNat)))

end BookFeed.Text.Utf8
