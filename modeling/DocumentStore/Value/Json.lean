import DocumentStore.Json.Basic
import DocumentStore.Text.Base64
import DocumentStore.Value.Basic

/-! Stored values as JSON and back. Whole numbers of both widths are one kind of numeral there, and
a double that is not finite is null. Other types become tagged documents, except that plain bytes
and decimals have no form in JSON. -/

namespace DocumentStore

namespace Value

def tag (name : String) (arg : Json) : Option Json :=
  some (.object [(name, arg)])

mutual

def toJson? : Value → Option Json
  | null => some .null
  | bool b => some (.bool b)
  | string s => some (.string s)
  | int32 n => some (.int n.toInt64)
  | int64 n => some (.int n)
  | double x => some (.float x)
  | array items => (itemsToJson? items).map .array
  | document fields => (fieldsToJson? fields).map .object
  | objectId id => tag "$oid" (.string id.hex)
  | dateTime t => tag "$date" (.object [("$numberLong", .string (toString t.toInt))])
  | regex pattern options =>
    tag "$regularExpression"
      (.object [("pattern", .string pattern), ("options", .string options)])
  | timestamp t i =>
    tag "$timestamp"
      (.object [("t", .int (Int64.ofNat t.toNat)), ("i", .int (Int64.ofNat i.toNat))])
  | binary subtype bytes =>
    if subtype = 0 then none
    else
      tag "$binary" (.object
        [("base64", .string (String.ofList (Text.Base64.encode bytes))),
          ("subType", .string (Text.Hex.text [subtype]))])
  | symbol s => tag "$symbol" (.string s)
  | code s => tag "$code" (.string s)
  | scopedCode s scope =>
    (fieldsToJson? scope).map fun scope =>
      .object [("$code", .string s), ("$scope", .object scope)]
  | pointer collection id =>
    tag "$dbPointer" (.object
      [("$ref", .string collection), ("$id", .object [("$oid", .string id.hex)])])
  | decimal _ => none
  | undefined => tag "$undefined" (.bool true)
  | minKey => tag "$minKey" (.int 1)
  | maxKey => tag "$maxKey" (.int 1)

def itemsToJson? : List Value → Option (List Json)
  | [] => some []
  | v :: vs => do return (← toJson? v) :: (← itemsToJson? vs)

def fieldsToJson? : List (String × Value) → Option (List (String × Json))
  | [] => some []
  | (key, v) :: rest => do return (key, ← toJson? v) :: (← fieldsToJson? rest)

end

mutual

/-- JSON as a stored value: numerals become whole numbers of sixty-four bits where they can. -/
def ofJson : Json → Value
  | .null => null
  | .bool b => bool b
  | .number n =>
    match n.toInt64? with
    | some i => int64 i
    | none => double n.toFloat
  | .string s => string s
  | .array items => array (itemsOfJson items)
  | .object members => document (fieldsOfJson members)

def itemsOfJson : List Json → List Value
  | [] => []
  | v :: vs => ofJson v :: itemsOfJson vs

def fieldsOfJson : List (String × Json) → Document
  | [] => []
  | (key, v) :: rest => (key, ofJson v) :: fieldsOfJson rest

end

end Value

end DocumentStore
