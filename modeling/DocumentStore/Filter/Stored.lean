import DocumentStore.Filter.Writing
import DocumentStore.Value.Json
import DocumentStore.Value.Reading

/-! Filters inside stored documents. They are written as they are in JSON, and read through JSON, so
that a filter is refused for the same reasons in both places. -/

namespace DocumentStore

def refused {α : Type} (read : Except FilterFault α) : Except DecodeFault α :=
  read.mapError .filter

def Value.readJson (v : Value) : Except DecodeFault Json :=
  match v.toJson? with
  | some j => .ok j
  | none => .error .mistyped

def Value.readFlag : Value → Except DecodeFault Bool
  | .bool b => .ok b
  | _ => .error .mistyped

namespace FilterFields

def checkStored (key : String) : Value → Except DecodeFault Unit :=
  match key with
  | "key" => Members.readable Value.readText
  | "operation" => Members.readable Value.readText
  | "negate" => Members.readable Value.readFlag
  | "value" => Members.readable Value.readJson
  | _ => fun _ => .ok ()

def ofDocument (d : Document) : Except DecodeFault FilterFields := do
  Members.check checkStored d
  return {
    key := ← Members.required Value.readText .missing d "key"
    operation := ← Members.required Value.readText .missing d "operation"
    negate := ← Members.optional Value.readFlag false d "negate"
    value := ← Members.optional Value.readJson .null d "value" }

end FilterFields

def Filter.ofDocument (d : Document) : Except DecodeFault Filter := do
  refused (← FilterFields.ofDocument d).toFilter

namespace ConcatenationFields

def readFilters : Value.Reader (List Json) :=
  Value.readItems Value.readJson

def checkStored (key : String) : Value → Except DecodeFault Unit :=
  match key with
  | "booleanOperation" => Members.readable Value.readText
  | "filters" => Members.readable readFilters
  | _ => fun _ => .ok ()

def ofDocument (d : Document) : Except DecodeFault ConcatenationFields := do
  Members.check checkStored d
  return {
    booleanOperation := ← Members.required Value.readText .missing d "booleanOperation"
    filters := ← Members.optional readFilters [] d "filters" }

end ConcatenationFields

def Concatenation.ofDocument (d : Document) : Except DecodeFault Concatenation := do
  refused (← ConcatenationFields.ofDocument d).toConcatenation

namespace FilterEntry

def read (v : Value) : Except DecodeFault FilterEntry := do
  refused (FilterEntry.ofJson (← v.readJson))

def toValue (e : FilterEntry) : Value :=
  .ofJson e.toJson

end FilterEntry

namespace FilterSet

/-- The entries of a set, which stand without an object around them in entities. -/
def read : Value.Reader FilterSet :=
  fun v => (Value.readItems FilterEntry.read v).map FilterSet.mk

def toValue (s : FilterSet) : Value :=
  .array (s.entries.map FilterEntry.toValue)

/-- A set without entries is empty. -/
def ofDocument (d : Document) : Except DecodeFault FilterSet :=
  Members.optional read FilterSet.empty d "filterSet"

def toDocument (s : FilterSet) : Document :=
  [("filterSet", s.toValue)]

end FilterSet

end DocumentStore
