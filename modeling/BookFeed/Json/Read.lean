import BookFeed.Json.Basic

/-!
# Reading JSON texts

`Json.read` gives the tree at the start of a text and what follows it. It never fails: where the
text stops being JSON the tree ends with `Json.fault`, and nothing follows.

`Json.Document` is a text that should hold one tree and blanks only besides.

Out of scope: at which line and column a text stops being JSON, and how that is worded.
-/

namespace BookFeed.Json

def isBlank (c : Char) : Bool := c == ' ' || c == '\n' || c == '\t' || c == '\r'

def skipBlanks (cs : List Char) : List Char := cs.dropWhile isBlank

/-- The characters up to the closing quote, and what follows it. Escapes are looked at only as far
as they decide where the string ends. -/
def readString : List Char → Option (List Char × List Char)
  | [] => none
  | '"' :: rest => some ([], rest)
  | '\\' :: 'u' :: a :: b :: c :: d :: rest =>
    if (unit? a b c d).isSome then
      (readString rest).map fun (raw, rest) => ('\\' :: 'u' :: a :: b :: c :: d :: raw, rest)
    else none
  | '\\' :: c :: rest =>
    if (unescapeChar? c).isSome then
      (readString rest).map fun (raw, rest) => ('\\' :: c :: raw, rest)
    else none
  | c :: rest =>
    if c.toNat < 32 then none
    else if c = '\\' then none
    else (readString rest).map fun (raw, rest) => (c :: raw, rest)

/-- A run of digits, at least one. -/
def readDigits (cs : List Char) : Option (List Char × List Char) :=
  let digits := cs.takeWhile Char.isDigit
  if digits.isEmpty then none else some (digits, cs.dropWhile Char.isDigit)

/-- The whole part of a number: a zero stands alone. -/
def readWhole : List Char → Option (List Char × List Char)
  | '0' :: c :: rest => if c.isDigit then none else some (['0'], c :: rest)
  | cs => readDigits cs

/-- The fraction of a number, if there is one. -/
def readFraction : List Char → Option (List Char × List Char)
  | '.' :: rest => (readDigits rest).map fun (digits, rest) => ('.' :: digits, rest)
  | cs => some ([], cs)

/-- The exponent of a number, if there is one. -/
def readExponent : List Char → Option (List Char × List Char)
  | c :: rest =>
    if c = 'e' ∨ c = 'E' then
      match rest with
      | '+' :: rest => (readDigits rest).map fun (digits, rest) => (c :: '+' :: digits, rest)
      | '-' :: rest => (readDigits rest).map fun (digits, rest) => (c :: '-' :: digits, rest)
      | rest => (readDigits rest).map fun (digits, rest) => (c :: digits, rest)
    else some ([], c :: rest)
  | [] => some ([], [])

/-- A number without its sign. -/
def readUnsigned (cs : List Char) : Option (List Char × List Char) := do
  let (whole, cs) ← readWhole cs
  let (fraction, cs) ← readFraction cs
  let (exponent, cs) ← readExponent cs
  return (whole ++ (fraction ++ exponent), cs)

def readNumber : List Char → Option (List Char × List Char)
  | '-' :: rest => (readUnsigned rest).map fun (text, rest) => ('-' :: text, rest)
  | cs => readUnsigned cs

/-- What follows `word`, if the text starts with it. -/
def afterWord : List Char → List Char → Option (List Char)
  | [], cs => some cs
  | w :: word, c :: cs => if w = c then afterWord word cs else none
  | _ :: _, [] => none

/-- A literal, a string or a number: whatever needs no further tree. -/
def readLeaf : List Char → Json × List Char
  | '"' :: rest =>
    match readString rest with
    | some (raw, rest) => (string raw, rest)
    | none => (fault, [])
  | 'n' :: rest =>
    match afterWord "ull".toList rest with
    | some rest => (null, rest)
    | none => (fault, [])
  | 't' :: rest =>
    match afterWord "rue".toList rest with
    | some rest => (bool true, rest)
    | none => (fault, [])
  | 'f' :: rest =>
    match afterWord "alse".toList rest with
    | some rest => (bool false, rest)
    | none => (fault, [])
  | cs =>
    match readNumber cs with
    | some (text, rest) => (number text, rest)
    | none => (fault, [])

mutual

/-- The tree at the start of the text. `fuel` bounds the nesting of calls. -/
def readFrom : Nat → List Char → Json × List Char
  | 0, _ => (fault, [])
  | fuel + 1, cs =>
    match skipBlanks cs with
    | '[' :: rest =>
      match skipBlanks rest with
      | ']' :: rest => (array [], rest)
      | rest =>
        let (items, rest) := readItems fuel rest
        (array items, rest)
    | '{' :: rest =>
      match skipBlanks rest with
      | '}' :: rest => (object [], rest)
      | rest =>
        let (fields, rest) := readFields fuel rest
        (object fields, rest)
    | rest => readLeaf rest

/-- The items of an array from one that must be there, up to the closing bracket. -/
def readItems : Nat → List Char → List Json × List Char
  | 0, _ => ([fault], [])
  | fuel + 1, cs =>
    let (item, rest) := readFrom fuel cs
    match skipBlanks rest with
    | ',' :: rest =>
      let (items, rest) := readItems fuel rest
      (item :: items, rest)
    | ']' :: rest => ([item], rest)
    | _ => ([item, fault], [])

/-- The fields of an object from one that must be there, up to the closing brace. -/
def readFields : Nat → List Char → List (List Char × Json) × List Char
  | 0, _ => ([([], fault)], [])
  | fuel + 1, cs =>
    match skipBlanks cs with
    | '"' :: rest =>
      match readString rest with
      | none => ([([], fault)], [])
      | some (key, rest) =>
        match skipBlanks rest with
        | ':' :: rest =>
          let (value, rest) := readFrom fuel rest
          match skipBlanks rest with
          | ',' :: rest =>
            let (fields, rest) := readFields fuel rest
            ((key, value) :: fields, rest)
          | '}' :: rest => ([(key, value)], rest)
          | _ => ([(key, value), ([], fault)], [])
        | _ => ([(key, fault)], [])
    | _ => ([([], fault)], [])

end

/-- The tree at the start of the text, and what follows it. -/
def read (cs : List Char) : Json × List Char := readFrom (2 * cs.length + 2) cs

/-- A text that should hold one tree. -/
structure Document where
  tree : Json
  /-- nothing but blanks follows the tree -/
  complete : Bool

def document (text : String) : Document :=
  let (tree, rest) := read text.toList
  ⟨tree, (skipBlanks rest).isEmpty⟩

end BookFeed.Json
