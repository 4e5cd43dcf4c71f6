import DocumentStore.Text.Numeral
import DocumentStore.Text.Uuid
import DocumentStore.Value.Reading

/-! Tagged documents. A document with a key such as `$oid` or `$date` stands for a value of another
type. Where documents are read as data such a key turns its document into that value, and the keys
before it are lost. -/

namespace DocumentStore

namespace Tagged

/-- The tags of one argument. Code has a tag of its own and one for the scope it runs in. -/
def names : List String :=
  ["$oid", "$symbol", "$numberInt", "$numberLong", "$numberDouble", "$numberDecimal",
    "$numberDecimalBytes", "$binary", "$uuid", "$timestamp", "$regularExpression", "$dbPointer",
    "$date", "$minKey", "$maxKey", "$undefined"]

def codeKey : String := "$code"
def scopeKey : String := "$scope"

def isName (key : String) : Bool :=
  names.contains key

/-- Options of a pattern are a set of letters, which is written in order. -/
def sortedOptions (options : String) : String :=
  String.ofList (options.toList.mergeSort (fun a b => decide (a ≤ b)))

def id? (text : String) : Option ObjectId :=
  (ObjectId.ofHex text).toOption

def decimal? (text : String) : Option (List UInt8) :=
  (Decimal128.ofText? text).map Decimal128.toBytes

/-- Bytes in base 64 and their subtype in hexadecimal digits. -/
def binary? (base64 subtype : String) : Option Value := do
  let bytes ← Text.Base64.decode? base64.toList
  match ← Text.Hex.bytes? subtype.toList with
  | [subtype] => return .binary subtype bytes
  | _ => none

def readId : Value.Reader ObjectId
  | .string text => (id? text).elim (.error .invalidValue) .ok
  | .binary 0 bytes => if h : bytes.length = 12 then .ok ⟨bytes, h⟩ else .error .wrongByteCount
  | _ => .error .mistyped

def readWord (v : Value) : Except DecodeFault UInt32 :=
  (v.readBelow UInt32.size).map UInt32.ofNat

def readDecimalBytes (v : Value) : Except DecodeFault (List UInt8) := do
  let bytes ← v.readBytes
  if bytes.length = 16 then return bytes else .error .wrongByteCount

def readBinary (mode : Strictness) (v : Value) : Except DecodeFault Value := do
  let (base64, subtype) ← v.readPair mode "base64" "subType" Value.readText Value.readText
  (binary? base64 subtype).elim (.error .invalidValue) .ok

def readPointer (mode : Strictness) (v : Value) : Except DecodeFault Value := do
  let (collection, hex) ←
    v.readPair mode "$ref" "$id" Value.readText (Value.readSingle mode "$oid" Value.readText)
  match ObjectId.ofHex hex with
  | .ok id => return .pointer collection id
  | .error fault => .error (.malformedId fault)

/-- Milliseconds as a numeral, an instant as text, or a plain number. -/
def readDate (v : Value) : Except DecodeFault Int64 :=
  match v.readSingle .exact "$numberLong" Value.readText with
  | .ok text => (Text.int64? text).elim (.error .invalidValue) .ok
  | .error _ =>
    match v.readText, v.asInt? with
    | .ok text, _ => ((Text.Instant.ofText? text).map Int64.ofInt).elim (.error .invalidValue) .ok
    | _, some n => .ok (Int64.ofInt n)
    | _, none => .error .noDateForm

def readOne (v : Value) : Except DecodeFault Unit := do
  if (← v.readBelow UInt8.size) = 1 then return () else .error .invalidValue

def readUndefined : Value.Reader Value
  | .bool true => .ok .undefined
  | .bool false => .error .invalidValue
  | _ => .error .mistyped

def read (mode : Strictness) (tag : String) (arg : Value) : Except DecodeFault Value :=
  match tag with
  | "$oid" => (readId arg).map .objectId
  | "$symbol" => arg.readText.map .symbol
  | "$numberInt" => (arg.readParsed Text.int32?).map .int32
  | "$numberLong" => (arg.readParsed Text.int64?).map .int64
  | "$numberDouble" => (arg.readParsed Text.double?).map .double
  | "$numberDecimal" => (arg.readParsed decimal?).map .decimal
  | "$numberDecimalBytes" => (readDecimalBytes arg).map .decimal
  | "$binary" => readBinary mode arg
  | "$uuid" => (arg.readParsed Text.Uuid.ofText?).map (.binary 4)
  | "$timestamp" =>
    (arg.readPair mode "t" "i" readWord readWord).map fun (t, i) => .timestamp t i
  | "$regularExpression" =>
    (arg.readPair mode "pattern" "options" Value.readText Value.readText).map
      fun (pattern, options) => .regex pattern (sortedOptions options)
  | "$dbPointer" => readPointer mode arg
  | "$date" => (readDate arg).map .dateTime
  | "$minKey" => (readOne arg).map fun _ => .minKey
  | "$maxKey" => (readOne arg).map fun _ => .maxKey
  | _ => readUndefined arg

/-- After the last part of a tagged document nothing may follow in an exact reading. -/
def close (mode : Strictness) (rest : Document) (v : Value) :
    Except DecodeFault (Document × Option Value) :=
  if mode = .exact ∧ ¬rest.isEmpty then .error .invalidLength else .ok ([], some v)

/-- Fields that are no tagged document. -/
def plain : Document × Option Value → Except DecodeFault Document
  | (fields, none) => .ok fields
  | (_, some _) => .error .mistyped

end Tagged

namespace Value

mutual

/-- A value as data, with tagged documents replaced by the values they stand for. -/
def untagged (mode : Strictness) : Value → Except DecodeFault Value
  | array items => (untaggedItems mode items).map array
  | document fields =>
    (untaggedFields mode fields).map fun (fields, whole) => whole.getD (document fields)
  | regex pattern options => .ok (regex pattern (Tagged.sortedOptions options))
  | scopedCode s scope =>
    ((untaggedFields mode scope).bind Tagged.plain).map (scopedCode s)
  | v => .ok v

def untaggedItems (mode : Strictness) : List Value → Except DecodeFault (List Value)
  | [] => .ok []
  | v :: vs => do return (← untagged mode v) :: (← untaggedItems mode vs)

/-- The fields before a tag, and the value of the tag if there is one. -/
def untaggedFields (mode : Strictness) :
    List (String × Value) → Except DecodeFault (Document × Option Value)
  | [] => .ok ([], none)
  | (key, v) :: rest =>
    if key = Tagged.codeKey then
      match v.readText, rest with
      | .error e, _ => .error e
      | .ok s, [] => .ok ([], some (code s))
      | .ok s, (key', scope) :: rest =>
        if key' = Tagged.scopeKey then do
          Tagged.close mode rest (.scopedCode s (← untaggedScope mode scope))
        else .error (.unknownField key' [Tagged.scopeKey])
    else if key = Tagged.scopeKey then do
      let scope ← untaggedScope mode v
      match rest with
      | [] => .error (.missing Tagged.codeKey)
      | (key', s) :: rest =>
        if key' = Tagged.codeKey then Tagged.close mode rest (.scopedCode (← s.readText) scope)
        else .error (.unknownField key' [Tagged.codeKey])
    else if Tagged.isName key then do
      Tagged.close mode rest (← Tagged.read mode key v)
    else do
      let v ← untagged mode v
      let (fields, whole) ← untaggedFields mode rest
      return ((key, v) :: fields, whole)

def untaggedScope (mode : Strictness) : Value → Except DecodeFault Document
  | document fields => (untaggedFields mode fields).bind Tagged.plain
  | _ => .error .mistyped

end

end Value

end DocumentStore
