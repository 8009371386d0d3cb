/-!
# JSON texts as trees

A `Json` tree keeps a text as it is written: the spelling of its numbers, the escapes of its
strings, the order of the fields of its objects and every repeated key. What a number or a string
means is settled by whoever reads the tree, so a reader may pass over a part it does not need even
if that part means nothing.

A text that stops being JSON still has a readable beginning. `Json.fault` stands at the place where
it stops, so that a reader going through the tree meets the faults of a text in text order.

`render` writes a tree without blanks; `ofString` and `unescape` are the two directions of string
escapes.
-/

namespace BookFeed

inductive Json where
  | null
  | bool (value : Bool)
  /-- a number, as it is spelled -/
  | number (text : List Char)
  /-- the characters between the quotes, as they are spelled -/
  | string (raw : List Char)
  | array (items : List Json)
  /-- fields in text order, keys as they are spelled -/
  | object (fields : List (List Char × Json))
  /-- here the text stops being JSON -/
  | fault

namespace Json

instance : Inhabited Json := ⟨null⟩

/-! ## Strings -/

def hexDigit (n : Nat) : Char := Nat.digitChar n

/-- How a character stands between quotes. -/
def escapeChar (c : Char) : List Char :=
  if c = '"' then ['\\', '"']
  else if c = '\\' then ['\\', '\\']
  else if c.toNat = 8 then ['\\', 'b']
  else if c.toNat = 9 then ['\\', 't']
  else if c.toNat = 10 then ['\\', 'n']
  else if c.toNat = 12 then ['\\', 'f']
  else if c.toNat = 13 then ['\\', 'r']
  else if c.toNat < 32 then ['\\', 'u', '0', '0', hexDigit (c.toNat / 16), hexDigit (c.toNat % 16)]
  else [c]

def escape (cs : List Char) : List Char := cs.flatMap escapeChar

def ofString (s : String) : Json := .string (escape s.toList)

def hexValue? (c : Char) : Option Nat :=
  if '0' ≤ c ∧ c ≤ '9' then some (c.toNat - 48)
  else if 'a' ≤ c ∧ c ≤ 'f' then some (c.toNat - 87)
  else if 'A' ≤ c ∧ c ≤ 'F' then some (c.toNat - 55)
  else none

/-- The code unit that four hexadecimal digits stand for. -/
def unit? (a b c d : Char) : Option Nat := do
  let a ← hexValue? a
  let b ← hexValue? b
  let c ← hexValue? c
  let d ← hexValue? d
  return ((a * 16 + b) * 16 + c) * 16 + d

/-- The character that a backslash and this letter stand for. -/
def unescapeChar? (c : Char) : Option Char :=
  match c with
  | '"' => some '"'
  | '\\' => some '\\'
  | '/' => some '/'
  | 'b' => some (Char.ofNat 8)
  | 'f' => some (Char.ofNat 12)
  | 'n' => some '\n'
  | 'r' => some '\r'
  | 't' => some '\t'
  | _ => none

/-- What the characters between quotes stand for. Half of a surrogate pair stands for nothing. -/
def unescape : List Char → Option (List Char)
  | [] => some []
  | '\\' :: 'u' :: a :: b :: c :: d :: rest =>
    match unit? a b c d with
    | none => none
    | some u =>
      if 0xD800 ≤ u ∧ u < 0xDC00 then
        match rest with
        | '\\' :: 'u' :: e :: f :: g :: h :: rest =>
          match unit? e f g h with
          | none => none
          | some v =>
            if 0xDC00 ≤ v ∧ v < 0xE000 then
              (unescape rest).map (Char.ofNat (0x10000 + (u - 0xD800) * 0x400 + (v - 0xDC00)) :: ·)
            else none
        | _ => none
      else if 0xDC00 ≤ u ∧ u < 0xE000 then none
      else (unescape rest).map (Char.ofNat u :: ·)
  | '\\' :: c :: rest =>
    match unescapeChar? c with
    | some c => (unescape rest).map (c :: ·)
    | none => none
  | '\\' :: [] => none
  | c :: rest => (unescape rest).map (c :: ·)

/-! ## Writing -/

mutual

/-- The text of a tree, without blanks. A fault has no text. -/
def render : Json → List Char
  | null => "null".toList
  | bool b => if b then "true".toList else "false".toList
  | number text => text
  | string raw => '"' :: raw ++ ['"']
  | array items => '[' :: renderItems items ++ [']']
  | object fields => '{' :: renderFields fields ++ ['}']
  | fault => []

def renderItems : List Json → List Char
  | [] => []
  | [item] => render item
  | item :: rest => render item ++ ',' :: renderItems rest

def renderFields : List (List Char × Json) → List Char
  | [] => []
  | [(key, value)] => '"' :: key ++ '"' :: ':' :: render value
  | (key, value) :: rest => '"' :: key ++ '"' :: ':' :: render value ++ ',' :: renderFields rest

end

def toText (j : Json) : String := String.ofList j.render

/-! ## Building -/

def ofNat (n : Nat) : Json := .number (Nat.toDigits 10 n)

def ofCount (n : UInt64) : Json := ofNat n.toNat

def ofFields (fields : List (String × Json)) : Json :=
  .object (fields.map fun (key, value) => (escape key.toList, value))

def ofOption {α : Type} (f : α → Json) : Option α → Json
  | none => .null
  | some a => f a

/-! ## Faults -/

mutual

/-- The tree is that of a whole JSON text: it holds no fault. -/
def isSound : Json → Bool
  | null => true
  | bool _ => true
  | number _ => true
  | string _ => true
  | array items => areSound items
  | object fields => fieldsSound fields
  | fault => false

def areSound : List Json → Bool
  | [] => true
  | item :: rest => isSound item && areSound rest

def fieldsSound : List (List Char × Json) → Bool
  | [] => true
  | (_, value) :: rest => isSound value && fieldsSound rest

end

end Json

end BookFeed
