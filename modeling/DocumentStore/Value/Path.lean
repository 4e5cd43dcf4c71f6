import DocumentStore.FieldPath
import DocumentStore.Value.Basic

/-! Reading, writing and removing the value at a field path. A segment is a key of a document or an
index of an array. A write creates the documents it needs and pads an array with nulls up to the
index written; a removal leaves a null in an array so that no element moves. -/

namespace DocumentStore

/-- The most nulls one write may add to an array before the index written. -/
def maxArrayPadding : Nat := 1500000

inductive WriteFault where
  | emptyPath
  | notAnIndex (segment : String) (path : FieldPath)
  | paddingTooLong (index : Nat) (path : FieldPath)
  | notAContainer (segment : String) (typeName : String) (path : FieldPath)
deriving DecidableEq

def WriteFault.message : WriteFault → String
  | .emptyPath => "cannot set an empty path"
  | .notAnIndex segment path =>
    s!"cannot create field '{segment}' in an array element of '{path.text}'"
  | .paddingTooLong index path =>
    s!"index {index} in '{path.text}' would pad the array past {maxArrayPadding} elements"
  | .notAContainer segment typeName path =>
    s!"cannot create field '{segment}' in element of type {typeName} at '{path.text}'"

namespace Value

/-- The value one segment below a value. -/
def child (v : Value) (segment : String) : Option Value :=
  match v with
  | document fields => Document.get fields segment
  | array items => (FieldPath.index? segment).bind (fun i => items[i]?)
  | _ => none

def getAt : Value → List String → Option Value
  | v, [] => some v
  | v, segment :: rest => (child v segment).bind (fun next => getAt next rest)

/-- A null in the way of a longer path gives place to a document. -/
def opened : Value → Value
  | null => document []
  | v => v

/-- The value after a write below it, and the fault if the write was refused on the way. -/
def setAt (path : FieldPath) (value : Value) : List String → Value → Option WriteFault × Value
  | [], _ => (none, value)
  | segment :: rest, document fields =>
    if rest.isEmpty then (none, document (Document.insert fields segment value))
    else
      let slot := opened ((Document.get fields segment).getD null)
      let (fault, slot) := setAt path value rest slot
      (fault, document (Document.insert fields segment slot))
  | segment :: rest, array items =>
    match FieldPath.index? segment with
    | none => (some (.notAnIndex segment path), array items)
    | some i =>
      if i - items.length > maxArrayPadding then (some (.paddingTooLong i path), array items)
      else
        let padded := items ++ List.replicate (i + 1 - items.length) null
        if rest.isEmpty then (none, array (padded.set i value))
        else
          let (fault, slot) := setAt path value rest (opened (padded.getD i null))
          (fault, array (padded.set i slot))
  | segment :: _, v => (some (.notAContainer segment v.typeName path), v)

def removeAt : List String → Value → Option Value × Value
  | [], v => (none, v)
  | [segment], document fields =>
    (Document.get fields segment, document (Document.erase fields segment))
  | [segment], array items =>
    match FieldPath.index? segment with
    | none => (none, array items)
    | some i => (items[i]?, array (items.set i null))
  | segment :: rest, document fields =>
    match Document.get fields segment with
    | none => (none, document fields)
    | some next =>
      let (removed, next) := removeAt rest next
      (removed, document (Document.insert fields segment next))
  | segment :: rest, array items =>
    match FieldPath.index? segment with
    | none => (none, array items)
    | some i =>
      match items[i]? with
      | none => (none, array items)
      | some next =>
        let (removed, next) := removeAt rest next
        (removed, array (items.set i next))
  | _ :: _, v => (none, v)

end Value

namespace Document

def getPath (d : Document) (path : FieldPath) : Option Value :=
  match path.segments with
  | [] => none
  | segment :: rest => (get d segment).bind (fun next => next.getAt rest)

/-- The document after a write, and the fault if the write was refused. A null at the first segment
of a longer path is not replaced. -/
def setPath (d : Document) (path : FieldPath) (value : Value) : Option WriteFault × Document :=
  match path.segments with
  | [] => (some .emptyPath, d)
  | [segment] => (none, insert d segment value)
  | segment :: rest =>
    let (fault, slot) := Value.setAt path value rest ((get d segment).getD (.document []))
    (fault, insert d segment slot)

def removePath (d : Document) (path : FieldPath) : Option Value × Document :=
  match path.segments with
  | [] => (none, d)
  | [segment] => (get d segment, erase d segment)
  | segment :: rest =>
    match get d segment with
    | none => (none, d)
    | some next =>
      let (removed, next) := next.removeAt rest
      (removed, insert d segment next)

end Document

end DocumentStore
