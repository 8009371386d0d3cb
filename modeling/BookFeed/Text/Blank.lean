/-!
# Blanks and fields

The characters that count as blank are those with the Unicode property `White_Space`. `trim` takes
them away at both ends of a text, and `split` cuts a text at a separator: `split_join` says that the
fields, joined again by the separator, are the text.
-/

namespace BookFeed.Text

/-- The character has the property `White_Space`. -/
def isBlank (c : Char) : Bool :=
  let n := c.toNat
  decide (9 ≤ n ∧ n ≤ 13) || n == 0x20 || n == 0x85 || n == 0xa0 || n == 0x1680 ||
    decide (0x2000 ≤ n ∧ n ≤ 0x200a) || n == 0x2028 || n == 0x2029 || n == 0x202f ||
    n == 0x205f || n == 0x3000

/-- The text without the blanks at its ends. -/
def trimChars (cs : List Char) : List Char :=
  ((cs.dropWhile isBlank).reverse.dropWhile isBlank).reverse

def trim (s : String) : String := String.ofList (trimChars s.toList)

/-- There is nothing but blanks. -/
def isAllBlank (s : String) : Bool := s.toList.all isBlank

/-- The fields between the separators: always one more than there are separators. -/
def splitChars (sep : Char) : List Char → List (List Char)
  | [] => [[]]
  | c :: rest =>
    match splitChars sep rest with
    | [] => [[c]]
    | field :: fields => if c = sep then [] :: field :: fields else (c :: field) :: fields

theorem splitChars_ne_nil (sep : Char) (cs : List Char) : splitChars sep cs ≠ [] := by
  cases cs with
  | nil => simp [splitChars]
  | cons c rest =>
    rw [splitChars]
    split
    · simp
    · split <;> simp

/-- **Nothing is lost**: the fields with the separator between them are the text. -/
theorem split_join (sep : Char) (cs : List Char) :
    [sep].intercalate (splitChars sep cs) = cs := by
  induction cs with
  | nil => rfl
  | cons c rest ih =>
    rw [splitChars]
    cases h : splitChars sep rest with
    | nil => exact absurd h (splitChars_ne_nil sep rest)
    | cons field fields =>
      rw [h] at ih
      by_cases hc : c = sep
      · subst hc
        simp only [if_true]
        rw [← ih]
        simp [List.intercalate]
      · simp only [hc, if_false]
        rw [← ih]
        cases fields <;> simp [List.intercalate]

end BookFeed.Text
