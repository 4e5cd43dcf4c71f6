import DocumentStore.DecodeFault
import DocumentStore.Members
import DocumentStore.Text.Utf8

/-! Reading the parts of stored documents. A record is a document with named fields, or an array
with one item per field in their order. -/

namespace DocumentStore

/-- How much of what is written has to be understood: a loose reading skips what follows after the
parts it knows, and an exact one refuses it. -/
inductive Strictness where
  | loose
  | exact
deriving DecidableEq

namespace Value

abbrev Reader (α : Type) := Value → Except DecodeFault α

variable {α β : Type}

/-- Plain bytes are read as text in UTF-8. -/
def readText : Reader String
  | string s => .ok s
  | binary 0 bytes =>
    match Text.Utf8.decode? bytes with
    | some s => .ok s
    | none => .error .invalidValue
  | _ => .error .mistyped

def readParsed (parse : String → Option α) (v : Value) : Except DecodeFault α :=
  match readText v with
  | .ok s => (parse s).elim (.error .invalidValue) .ok
  | .error e => .error e

def readDouble (v : Value) : Except DecodeFault Float :=
  match v.asDouble? with
  | some x => .ok x
  | none => .error .mistyped

def readBelow (bound : Nat) (v : Value) : Except DecodeFault Nat :=
  match v.asInt? with
  | some n => if 0 ≤ n ∧ n < bound then .ok n.toNat else .error .invalidValue
  | none => .error .mistyped

def readItems (read : Reader α) : Reader (List α)
  | array items => items.mapM read
  | _ => .error .mistyped

/-- A null counts as absent. -/
def readOptional (read : Reader α) : Reader (Option α)
  | null => .ok none
  | v => (read v).map some

/-- Bytes are also read from a text, or from an array of numbers. -/
def readBytes : Reader (List UInt8)
  | binary 0 bytes => .ok bytes
  | string s => .ok s.toUTF8.toList
  | array items => (items.mapM (readBelow UInt8.size)).map (·.map UInt8.ofNat)
  | _ => .error .mistyped

/-- The document that stands for a value of a type that JSON does not have. -/
def tagged? : Value → Option Document
  | objectId id => some [("$oid", string id.hex)]
  | dateTime t => some [("$date", document [("$numberLong", string (toString t.toInt))])]
  | regex pattern options =>
    some [("$regularExpression",
      document [("pattern", string pattern), ("options", string options)])]
  | timestamp t i =>
    some [("$timestamp",
      document [("t", int64 (Int64.ofNat t.toNat)), ("i", int64 (Int64.ofNat i.toNat))])]
  | binary subtype bytes =>
    if subtype = 0 then none
    else
      some [("$binary", document
        [("base64", string (String.ofList (Text.Base64.encode bytes))),
          ("subType", string (Text.Hex.text [subtype]))])]
  | symbol s => some [("$symbol", string s)]
  | code s => some [("$code", string s)]
  | scopedCode s scope => some [("$code", string s), ("$scope", document scope)]
  | pointer collection id =>
    some [("$dbPointer", document
      [("$ref", string collection), ("$id", document [("$oid", string id.hex)])])]
  | decimal bytes => some [("$numberDecimalBytes", binary 0 bytes)]
  | undefined => some [("$undefined", bool true)]
  | minKey => some [("$minKey", int32 1)]
  | maxKey => some [("$maxKey", int32 1)]
  | _ => none

/-- The members of a document, or of the one that stands for a value. -/
def members? : Value → Option Document
  | document fields => some fields
  | v => v.tagged?

/-- Reads a record from its fields, and skips others. -/
def readRecord (mode : Strictness) (fields : List String)
    (read : (missing : String → DecodeFault) → Document → Except DecodeFault α) : Reader α
  | array items =>
    match read (fun _ => .invalidLength) (fields.zip items) with
    | .ok record =>
      if mode = .exact ∧ fields.length < items.length then .error .invalidLength else .ok record
    | .error e => .error e
  | v =>
    match v.members? with
    | some members => read .missing members
    | none => .error .mistyped

def readPair (mode : Strictness) (a b : String) (readA : Reader α) (readB : Reader β) :
    Reader (α × β) :=
  readRecord mode [a, b] fun missing members => do
    Members.check
      (fun key =>
        if key = a then Members.readable readA
        else if key = b then Members.readable readB
        else fun _ => .error (.unknownField key [a, b]))
      members
    return (← Members.required readA missing members a, ← Members.required readB missing members b)

def readSingle (mode : Strictness) (a : String) (read : Reader α) : Reader α :=
  readRecord mode [a] fun missing members => do
    Members.check
      (fun key =>
        if key = a then Members.readable read else fun _ => .error (.unknownField key [a]))
      members
    Members.required read missing members a

/-- A field that may be absent or null. -/
def optionalField (read : Reader α) (members : Document) (key : String) :
    Except DecodeFault (Option α) :=
  Members.optional (readOptional read) none members key

end Value

end DocumentStore
