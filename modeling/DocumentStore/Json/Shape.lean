import DocumentStore.Decimal.Shortest
import DocumentStore.Json.Basic
import DocumentStore.Members
import DocumentStore.Text.Quoted

/-! Reading records from JSON. A record is an object with named members, or an array with one item
per field in the order of the fields. Members are read in the order written and the first of a wrong
type is reported; missing ones are reported afterwards, and unknown ones are skipped. -/

namespace DocumentStore

inductive ShapeError where
  | mistyped (found : Json) (expected : String)
  | outOfRange (n : Int) (expected : String)
  | missing (field : String)
  | tooShort (length : Nat) (record : String) (fields : Nat)
  | tooLong (length : Nat)
  | noAlternative (type : String)

namespace Json

/-- What a value is called in a message. -/
def kindName : Json → String
  | null => "null"
  | bool b => s!"boolean `{b}`"
  | number (.unsigned n) => s!"integer `{n.toNat}`"
  | number (.signed n) => s!"integer `{n.toInt}`"
  | number (.float x) => s!"floating point `{Decimal.pointedText x}`"
  | string s => "string " ++ Text.quoted s
  | array _ => "sequence"
  | object _ => "map"

end Json

namespace ShapeError

def message : ShapeError → String
  | mistyped found expected => s!"invalid type: {found.kindName}, expected {expected}"
  | outOfRange n expected => s!"invalid value: integer `{n}`, expected {expected}"
  | missing field => s!"missing field `{field}`"
  | tooShort length record fields =>
    s!"invalid length {length}, expected struct {record} with {fields} elements"
  | tooLong length => s!"invalid length {length}, expected fewer elements in array"
  | noAlternative type => s!"data did not match any variant of untagged enum {type}"

end ShapeError

namespace Json

abbrev Reader (α : Type) := Json → Except ShapeError α

def readString : Reader String
  | string s => .ok s
  | v => .error (.mistyped v "a string")

def readBool : Reader Bool
  | bool b => .ok b
  | v => .error (.mistyped v "a boolean")

def readArray : Reader (List Json)
  | array items => .ok items
  | v => .error (.mistyped v "a sequence")

def readUInt64 : Reader UInt64
  | number (.unsigned n) => .ok n
  | number (.signed n) => .error (.outOfRange n.toInt "u64")
  | v => .error (.mistyped v "u64")

def readInt64 : Reader Int64
  | number (.unsigned n) =>
    match (Numeral.unsigned n).toInt64? with
    | some n => .ok n
    | none => .error (.outOfRange n.toNat "i64")
  | number (.signed n) => .ok n
  | v => .error (.mistyped v "i64")

/-- Reads a record from its members, or from an array by the order of its fields. -/
def readRecord {α : Type} (name : String) (fields : List String)
    (read : (missing : String → ShapeError) → List (String × Json) → Except ShapeError α) :
    Reader α
  | object members => read .missing members
  | array items =>
    match read (fun _ => .tooShort items.length name fields.length) (fields.zip items) with
    | .ok record =>
      if fields.length < items.length then .error (.tooLong items.length) else .ok record
    | .error e => .error e
  | v => .error (.mistyped v s!"struct {name}")

end Json

end DocumentStore
