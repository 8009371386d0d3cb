import BookFeed.Json.Number
import BookFeed.Decimal.Text

/-!
# Reading domain values from JSON trees

A reader takes a tree to a value or says why it cannot. Readers go through a tree in text order, so
that of two faults in a text the first one is reported.

A record may be written as an object, whose fields stand in any order, or as an array of its
fields in their declared order (`readRecord`). Fields that the record does not have are passed
over, one that it has may not be given twice. A name of an enumeration may stand alone or as the
only key of an object with a null (`readName`).

Out of scope: where in the text a fault is and how it is worded, but for the form of a price level.
Every other reason for which a text cannot be read is `DecodeError.malformed`.
-/

namespace BookFeed.Json

/-- Why a tree cannot be read. -/
inductive DecodeError where
  /-- it is no JSON text, or not one of the expected form -/
  | malformed
  /-- a price level that does not consist of a price and an amount -/
  | levelFormat
deriving DecidableEq, Repr

def DecodeError.message : DecodeError → String
  | malformed => "Malformed JSON"
  | levelFormat => "Invalid price level format"

/-- What a reader answers. -/
abbrev Decoded (α : Type) := Except DecodeError α

def ofOption? {α : Type} : Option α → Decoded α
  | some a => .ok a
  | none => .error .malformed

def readText : Json → Decoded String
  | .string raw => ofOption? ((unescape raw).map String.ofList)
  | _ => .error .malformed

def readNumberValue : Json → Decoded Number
  | .number text => ofOption? (numberValue? text)
  | _ => .error .malformed

/-- An integer of 64 bits without a sign. -/
def readCount (j : Json) : Decoded UInt64 := do
  match ← readNumberValue j with
  | .integer n => if 0 ≤ n then return UInt64.ofNat n.toNat else throw .malformed
  | .float _ => throw .malformed

def readFloat (j : Json) : Decoded Binary64 := do
  match ← readNumberValue j with
  | .integer n => return Binary64.ofInt n
  | .float x => return x

/-- A decimal given as its text. -/
def readDecimalText (j : Json) : Decoded Decimal := do
  ofOption? (Decimal.read? (← readText j))

/-- A decimal given as its text or as a number. A number that is no integer counts as the shortest
digits that read back to it. -/
def readDecimal : Json → Decoded Decimal
  | .number text => do
    match ← ofOption? (numberValue? text) with
    | .integer n => ofOption? (Decimal.mk? n 0)
    | .float x => ofOption? (Decimal.read? x.positional)
  | j => readDecimalText j

/-- A value that may be null. -/
def readOptional {α : Type} (read : Json → Decoded α) : Json → Decoded (Option α)
  | .null => .ok none
  | j => (read j).map some

def readList {α : Type} (read : Json → Decoded α) : Json → Decoded (List α)
  | .array items => items.mapM read
  | _ => .error .malformed

/-- One of the given names. -/
def readName {α : Type} (names : List (String × α)) : Json → Decoded α
  | .string raw => do ofOption? (names.lookup (← readText (.string raw)))
  | .object [(key, .null)] => do ofOption? (names.lookup (← readText (.string key)))
  | _ => .error .malformed

/-! ## Records -/

/-- Reads the fields of an object into a record under construction. `seen` are the names already
given. -/
def readFieldsOf {σ : Type} (names : List String) (put : String → Json → σ → Decoded σ) :
    List String → σ → List (List Char × Json) → Decoded σ
  | _, record, [] => .ok record
  | seen, record, (key, value) :: rest => do
    let name ← readText (.string key)
    if names.contains name then
      if seen.contains name then throw .malformed
      else readFieldsOf names put (name :: seen) (← put name value record) rest
    else if value.isSound then readFieldsOf names put seen record rest
    else throw .malformed

/-- Reads the items of an array into a record under construction. -/
def readItemsOf {σ : Type} (put : String → Json → σ → Decoded σ) :
    List String → σ → List Json → Decoded σ
  | _, record, [] => .ok record
  | [], _, _ :: _ => .error .malformed
  | name :: names, record, value :: rest => do readItemsOf put names (← put name value record) rest

/-- Reads a record with these field names, in their declared order. -/
def readRecord {σ : Type} (names : List String) (put : String → Json → σ → Decoded σ) (empty : σ) :
    Json → Decoded σ
  | .object fields => readFieldsOf names put [] empty fields
  | .array items => readItemsOf put names empty items
  | _ => .error .malformed

/-- Reads a text that holds one tree. -/
def readDocument {α : Type} (read : Json → Decoded α) (text : String) : Decoded α := do
  let d := document text
  let a ← read d.tree
  if d.complete then return a else throw .malformed

end BookFeed.Json
