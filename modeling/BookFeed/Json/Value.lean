import BookFeed.Json.Number

/-!
# JSON values

What a JSON text means once everything in it has been read: numbers are values, strings are
characters, and of a repeated key the last field counts. The fields of an object stand in the order
of their keys. Texts nested deeper than 127 brackets have no value.
-/

namespace BookFeed.Json

/-- The meaning of a JSON text. -/
inductive Value where
  | null
  | bool (value : Bool)
  | number (value : Number)
  | string (value : String)
  | array (items : List Value)
  | object (fields : List (String × Value))

namespace Value

instance : Inhabited Value := ⟨null⟩

/-- Puts a field in its place, over one with the same key. -/
def insertField (key : String) (value : Value) : List (String × Value) → List (String × Value)
  | [] => [(key, value)]
  | (k, v) :: rest =>
    if key < k then (key, value) :: (k, v) :: rest
    else if key = k then (key, value) :: rest
    else (k, v) :: insertField key value rest

mutual

/-- The value of a tree; at most `depth` brackets may be open at once. -/
def ofJson? (depth : Nat) : Json → Option Value
  | .null => some null
  | .bool b => some (bool b)
  | .number text => (numberValue? text).map number
  | .string raw => (unescape raw).map fun cs => string (String.ofList cs)
  | .array items => if depth = 0 then none else (ofItems? (depth - 1) items).map array
  | .object fields => if depth = 0 then none else (ofFields? (depth - 1) fields []).map object
  | .fault => none

def ofItems? (depth : Nat) : List Json → Option (List Value)
  | [] => some []
  | item :: rest => do
    let item ← ofJson? depth item
    let rest ← ofItems? depth rest
    return item :: rest

def ofFields? (depth : Nat) : List (List Char × Json) → List (String × Value) →
    Option (List (String × Value))
  | [], done => some done
  | (key, value) :: rest, done => do
    let key ← unescape key
    let value ← ofJson? depth value
    ofFields? depth rest (insertField (String.ofList key) value done)

end

/-- The value of a text that holds one tree. -/
def read? (text : String) : Option Value :=
  let d := document text
  if d.complete then ofJson? 127 d.tree else none

def numberText : Number → List Char
  | .integer n => (toString n).toList
  | .float x => x.compact.toList

mutual

/-- The tree of a value. -/
def toJson : Value → Json
  | null => .null
  | bool b => .bool b
  | number n => .number (numberText n)
  | string s => .ofString s
  | array items => .array (itemsToJson items)
  | object fields => .object (fieldsToJson fields)

def itemsToJson : List Value → List Json
  | [] => []
  | item :: rest => toJson item :: itemsToJson rest

def fieldsToJson : List (String × Value) → List (List Char × Json)
  | [] => []
  | (key, value) :: rest => (escape key.toList, toJson value) :: fieldsToJson rest

end

def toText (v : Value) : String := v.toJson.toText

end Value

end BookFeed.Json
