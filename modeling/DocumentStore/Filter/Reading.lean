import DocumentStore.Filter.Fault
import DocumentStore.Json.Text
import DocumentStore.Pattern.Matching

/-! Reading filters from JSON. Operands are checked while they are read and never converted, and the
first invalid entry of a set fails the whole set. -/

namespace DocumentStore

def readPattern (v : Json) : Except OperandFault String :=
  match v with
  | .string s => if (Pattern.ofText? {} s).isSome then .ok s else .error .notAPattern
  | _ => .error (.notAString .contains)

def readText (v : Json) : Except OperandFault String :=
  match v with
  | .string s => .ok s
  | _ => .error (.notAString .equals)

/-- Whole numbers of sixty-four bits with a sign are integers, and all others doubles. -/
def Number.ofNumeral (n : Json.Numeral) : Number :=
  match n.toInt64? with
  | some i => .int i
  | none => .float n.toFloat

def readNumber (kind : OperationKind) (v : Json) : Except OperandFault Number :=
  match v with
  | .number n =>
    if n.toInt64?.isSome || n.toFloat.isFinite then .ok (.ofNumeral n)
    else .error (.notANumber kind)
  | _ => .error (.notANumber kind)

def readFlag (v : Json) : Except OperandFault Bool :=
  match v with
  | .bool b => .ok b
  | _ => .error .notABoolean

def readCoordinate (v : Json) : Option Float :=
  v.asFloat?.filter Float.isFinite

namespace Position

def inRange (p : Position) : Bool :=
  -180 ≤ p.longitude && p.longitude ≤ 180 && -90 ≤ p.latitude && p.latitude ≤ 90

def ofJson (v : Json) : Except OperandFault Position :=
  match v with
  | .array [a, b] =>
    match readCoordinate a, readCoordinate b with
    | some longitude, some latitude =>
      let p : Position := ⟨longitude, latitude⟩
      if p.inRange then .ok p else .error .coordinateRange
    | _, _ => .error .coordinateKind
  | .array _ => .error .coordinateCount
  | _ => .error .notAPosition

end Position

/-- The radius has a second name, which is used where the first is absent. -/
def readRadius (v : Json) : Except OperandFault (Position × Float) := do
  let members ← match v with
    | .object members => .ok members
    | _ => .error .notARadius
  let center ← match members.lookup "center" with
    | some c => Position.ofJson c
    | none => .error .centerMissing
  match ((members.lookup "radius").or (members.lookup "radiusKm")).bind Json.asFloat? with
  | none => .error .radiusKind
  | some kilometres =>
    if !kilometres.isFinite || kilometres < 0 then .error .radiusRange
    else .ok (center, kilometres)

def readRing (v : Json) : Except OperandFault (List Position) := do
  let vertices ← match (v.get? "vertices").bind Json.asArray? with
    | some vertices => .ok vertices
    | none => .error .notAnArea
  let ring ← vertices.mapM Position.ofJson
  if ring.length < 4 then .error .ringTooShort
  else if !isClosed ring then .error .ringOpen
  else .ok ring

def Operation.ofJson (kind : OperationKind) (v : Json) : Except OperandFault Operation :=
  match kind with
  | .contains => (readPattern v).map .contains
  | .equals => (readText v).map .equals
  | .compare c => (readNumber (.compare c) v).map (.compare c)
  | .is => (readFlag v).map .is
  | .radius => (readRadius v).map (fun (center, kilometres) => .radius center kilometres)
  | .area => (readRing v).map .area

structure FilterFields where
  key : String
  operation : String
  negate : Bool
  value : Json

namespace FilterFields

def checkMember (key : String) : Json.Reader Unit :=
  match key with
  | "key" => Members.readable Json.readString
  | "operation" => Members.readable Json.readString
  | "negate" => Members.readable Json.readBool
  | _ => fun _ => .ok ()

def ofJson : Json.Reader FilterFields :=
  Json.readRecord "RawFilter" ["key", "operation", "negate", "value"] fun missing members => do
    Members.check checkMember members
    return {
      key := ← Members.required Json.readString missing members "key"
      operation := ← Members.required Json.readString missing members "operation"
      negate := ← Members.optional Json.readBool false members "negate"
      value := (members.lookup "value").getD .null }

/-- An unknown operation is reported before an empty key, and an empty key before the operand. -/
def toFilter (fields : FilterFields) : Except FilterFault Filter :=
  match OperationKind.named? fields.operation with
  | none => .error (.unknownOperation fields.operation)
  | some kind =>
    let key := FieldPath.ofString fields.key
    if key.isEmpty then .error (.emptyKey fields.key)
    else
      match Operation.ofJson kind fields.value with
      | .ok operation => .ok ⟨key, fields.negate, operation⟩
      | .error fault => .error (.operand key fault)

end FilterFields

def isConcatenation (v : Json) : Bool :=
  (v.get? "booleanOperation").isSome

def Filter.ofJson (v : Json) : Except FilterFault Filter :=
  if isConcatenation v then .error .nestedConcatenation
  else
    match FilterFields.ofJson v with
    | .ok fields => fields.toFilter
    | .error e => .error (.filterShape e)

structure ConcatenationFields where
  booleanOperation : String
  filters : List Json

namespace ConcatenationFields

def checkMember (key : String) : Json.Reader Unit :=
  match key with
  | "booleanOperation" => Members.readable Json.readString
  | "filters" => Members.readable Json.readArray
  | _ => fun _ => .ok ()

def ofJson : Json.Reader ConcatenationFields :=
  Json.readRecord "RawConcatenation" ["booleanOperation", "filters"] fun missing members => do
    Members.check checkMember members
    return {
      booleanOperation := ← Members.required Json.readString missing members "booleanOperation"
      filters := ← Members.optional Json.readArray [] members "filters" }

def toConcatenation (fields : ConcatenationFields) : Except FilterFault Concatenation :=
  match Combinator.named? fields.booleanOperation with
  | none => .error (.unknownOperation fields.booleanOperation)
  | some combinator =>
    if fields.filters.isEmpty then .error (.emptyConcatenation combinator)
    else (fields.filters.mapM Filter.ofJson).map (⟨combinator, ·⟩)

end ConcatenationFields

def Concatenation.ofJson (v : Json) : Except FilterFault Concatenation :=
  match ConcatenationFields.ofJson v with
  | .ok fields => fields.toConcatenation
  | .error e => .error (.concatenationShape e)

def FilterEntry.ofJson (v : Json) : Except FilterFault FilterEntry :=
  match v with
  | .object _ =>
    if isConcatenation v then (Concatenation.ofJson v).map .concatenation
    else (Filter.ofJson v).map .leaf
  | _ => .error .entryNotAnObject

/-- The entries of a set, numbered for the report of the first that fails. -/
def readEntries : (index : Nat) → List Json → Except FilterFault (List FilterEntry)
  | _, [] => .ok []
  | index, v :: vs =>
    match FilterEntry.ofJson v with
    | .error fault => .error (.entry index fault)
    | .ok e => (readEntries (index + 1) vs).map (e :: ·)

namespace FilterSet

def ofJson (v : Json) : Except FilterFault FilterSet :=
  match v with
  | .object members =>
    match members.lookup "filterSet" with
    | some (.array entries) => (readEntries 0 entries).map FilterSet.mk
    | some _ => .error .entriesNotAnArray
    | none => .error .entriesMissing
  | _ => .error .setNotAnObject

/-- The deepest nesting of JSON text that is read. -/
def maxTextDepth : Nat := 127

def ofText (text : String) : Except FilterFault FilterSet :=
  match Json.ofText? maxTextDepth text with
  | some v => ofJson v
  | none => .error .malformedText

end FilterSet

end DocumentStore
