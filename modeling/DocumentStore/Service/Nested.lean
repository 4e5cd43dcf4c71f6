import DocumentStore.Entity.Record
import DocumentStore.Service.Basic

/-! Requests on a single value inside records. -/

namespace DocumentStore.Record

/-- The value at a path; a null counts as absent. -/
def nestedValue (c : Collection) (id : ObjectId) (path : FieldPath) :
    Except ServiceFault Value :=
  match c.findOne (Query.byId id) with
  | .ok (some d) =>
    match d.getPath path with
    | none => .error (.noValue path id)
    | some .null => .error (.noValue path id)
    | some v => .ok v
  | .ok none => .error (.notFound model.name "get_nested_value" id)
  | .error fault => .error (.query fault)

/-- Identifiers and everything below them cannot be written. -/
def checkWritable (path : FieldPath) : Except ServiceFault Unit :=
  if path.isEmpty then .error .emptyPath
  else if path.isWithinIdentifier then .error .identifierPath
  else .ok ()

def setUpdate (now : Int64) (path : FieldPath) (v : Value) : Document :=
  [("$set", .document
    (Document.insert [(path.text, v)] updatedAtKey (.dateTime now)))]

def unsetUpdate (now : Int64) (path : FieldPath) : Document :=
  [("$unset", .document [(path.text, .string "")]),
    ("$set", .document [(updatedAtKey, .dateTime now)])]

/-- Writes one record after the other. The first fault ends the request, and the records before it
stay written. -/
def writeEach (write : Collection → ObjectId → Except ServiceFault (List Record) × Collection) :
    List ObjectId → Collection → Except ServiceFault (List Record) × Collection
  | [], c => (.ok [], c)
  | id :: ids, c =>
    match write c id with
    | (.error fault, c) => (.error fault, c)
    | (.ok written, c) =>
      let (rest, c) := writeEach write ids c
      (rest.map (written ++ ·), c)

/-- Writes one value inside several records. One time of the change is taken for the whole request,
and all the records that it writes share it: the clock is not read again for each of them. -/
def updateNested (c : Collection) (now : Int64) (ids : List ObjectId) (path : FieldPath)
    (v : Value) : Except ServiceFault (List Record) × Collection :=
  match checkWritable path with
  | .error fault => (.error fault, c)
  | .ok () =>
    writeEach
      (fun c id =>
        let (r, c) := model.write c "update_nested_value" id (setUpdate now path v)
        (r.map ([·]), c))
      ids c

/-- Answers nothing for an identifier without a record. -/
def skipMissing : Except ServiceFault Record → Except ServiceFault (List Record)
  | .ok r => .ok [r]
  | .error (.notFound _ _ _) => .ok []
  | .error fault => .error fault

/-- Takes one value out of several records. As for a write, one time of the change is taken for the
whole request and not for each record. -/
def deleteNested (c : Collection) (now : Int64) (ids : List ObjectId) (path : FieldPath) :
    Except ServiceFault (List Record) × Collection :=
  match checkWritable path with
  | .error fault => (.error fault, c)
  | .ok () =>
    writeEach
      (fun c id =>
        let (r, c) := model.write c "delete_nested_value" id (unsetUpdate now path)
        (skipMissing r, c))
      ids c

end DocumentStore.Record
