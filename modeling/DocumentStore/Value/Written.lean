import DocumentStore.Value.Tagged

/-! Values as they are written. What is written is brought to a form that can be read back: a
document that holds a tag and its argument alone becomes the value they stand for, from the inside
out. The forms of arguments are fewer than those that are read. -/

namespace DocumentStore

namespace Tagged

/-- Two numbers of thirty-two bits whatever their signs, or two of sixty-four that are in range. -/
def writtenTimestamp? (body : Document) : Option Value :=
  match body.get "t", body.get "i" with
  | some (.int32 t), some (.int32 i) => some (.timestamp t.toUInt32 i.toUInt32)
  | some (.int64 t), some (.int64 i) => do
    return .timestamp (← (readWord (.int64 t)).toOption) (← (readWord (.int64 i)).toOption)
  | _, _ => none

/-- Bytes as text, or as they are with a number for their subtype. -/
def writtenBinary? (body : Document) : Option Value :=
  match body.get "base64", body.get "subType", body.get "bytes" with
  | some (.string base64), some (.string subtype), _ => binary? base64 subtype
  | some (.string _), _, _ => none
  | _, some (.int32 subtype), some (.binary 0 bytes) =>
    if 0 ≤ subtype.toInt ∧ subtype.toInt < UInt8.size then
      some (.binary (UInt8.ofNat subtype.toInt.toNat) bytes)
    else none
  | _, _, _ => none

def writtenRegex? (body : Document) : Option Value :=
  match body.get "pattern", body.get "options" with
  | some (.string pattern), some (.string options) => some (.regex pattern (sortedOptions options))
  | _, _ => none

def writtenPointer? (body : Document) : Option Value :=
  match body.get "$ref", body.get "$id" with
  | some (.string collection), some (.objectId id) => some (.pointer collection id)
  | _, _ => none

def writtenText? (tag text : String) : Option Value :=
  match tag with
  | "$oid" => (id? text).map .objectId
  | "$symbol" => some (.symbol text)
  | "$code" => some (.code text)
  | "$numberInt" => (Text.int32? text).map .int32
  | "$numberLong" => (Text.int64? text).map .int64
  | "$numberDouble" => (Text.double? text).map .double
  | "$numberDecimal" => (decimal? text).map .decimal
  | "$date" => (Text.Instant.ofText? text).map fun t => .dateTime (Int64.ofInt t)
  | _ => none

def writtenBody? (tag : String) (body : Document) : Option Value :=
  match tag with
  | "$binary" => writtenBinary? body
  | "$timestamp" => writtenTimestamp? body
  | "$regularExpression" => writtenRegex? body
  | "$dbPointer" => writtenPointer? body
  | _ => none

def isOne (v : Value) : Bool :=
  v.asInt? == some 1

/-- The value that is written for a tag, given the form its argument is written in. -/
def written? (tag : String) : Value → Option Value
  | .string text => writtenText? tag text
  | .document body => writtenBody? tag body
  | .binary 0 bytes =>
    if tag = "$numberDecimalBytes" ∧ bytes.length = 16 then some (.decimal bytes) else none
  | .bool b => if tag = "$undefined" ∧ b then some .undefined else none
  | .int64 t =>
    if tag = "$date" then some (.dateTime t)
    else if isOne (.int64 t) then limit? tag else none
  | .int32 n => if isOne (.int32 n) then limit? tag else none
  | _ => none
where
  limit? : String → Option Value
    | "$minKey" => some .minKey
    | "$maxKey" => some .maxKey
    | _ => none

end Tagged

namespace Value

/-- A document of a tag and its argument becomes the value that they stand for. -/
def ofWritten : Document → Value
  | [(tag, arg)] => (Tagged.written? tag arg).getD (document [(tag, arg)])
  | [("$code", string s), ("$scope", document scope)] => scopedCode s scope
  | [("$scope", document scope), ("$code", string s)] => scopedCode s scope
  | fields => document fields

mutual

/-- A value as it is written. -/
def written : Value → Value
  | array items => array (writtenItems items)
  | document fields => ofWritten (writtenFields fields)
  | regex pattern options => regex pattern (Tagged.sortedOptions options)
  | scopedCode s scope =>
    ofWritten [("$code", string s), ("$scope", ofWritten (writtenFields scope))]
  | decimal bytes => decimal (Decimal128.canonical bytes)
  | v => v

def writtenItems : List Value → List Value
  | [] => []
  | v :: vs => written v :: writtenItems vs

def writtenFields : List (String × Value) → Document
  | [] => []
  | (key, v) :: rest => (key, written v) :: writtenFields rest

end

end Value

end DocumentStore
