import DocumentStore.Pipeline.Stage

/-! Collections of documents in memory, kept in the order of insertion. An operation that is refused
leaves the collection as it was, so a result comes with a collection only where there is one. -/

namespace DocumentStore

namespace Document

def setField (d : Document) (entry : String × Value) : Except QueryFault Document :=
  let path := FieldPath.ofString entry.1
  if path.isIdentifier then .error .identifierImmutable
  else
    match setPath d path entry.2 with
    | (none, d) => .ok d
    | (some fault, _) => .error (.write fault)

def unsetField (d : Document) (entry : String × Value) : Document :=
  (removePath d (.ofString entry.1)).2

def applyOperator (d : Document) (operator : String) (fields : Document) :
    Except QueryFault Document :=
  match operator with
  | "$set" => fields.foldlM setField d
  | "$unset" => .ok (fields.foldl unsetField d)
  | name => .error (.unknownUpdate name)

/-- A document after an update; its operators are applied in order. -/
def update : Document → Document → Except QueryFault Document
  | d, [] => .ok d
  | d, (operator, arg) :: rest =>
    match arg with
    | .document fields => do update (← applyOperator d operator fields) rest
    | _ => .error (.notADocument operator)

/-- The document with an identifier in front, unless it has one. -/
def withId (fresh : ObjectId) (d : Document) : Document :=
  if contains d idKey then d else (idKey, .objectId fresh) :: d

def id? (d : Document) : Except QueryFault ObjectId :=
  match (get d idKey).bind Value.asObjectId? with
  | some id => .ok id
  | none => .error .identifierKind

end Document

inductive InsertFault where
  | identifierKind
  | duplicateKey (id : ObjectId) (collection : String)
deriving DecidableEq

def InsertFault.toStoreError : InsertFault → StoreError
  | identifierKind => .internal "inserted _id is not an ObjectId"
  | duplicateKey id collection =>
    .query s!"duplicate key: _id {id.hex} already exists in {collection}"

structure Collection where
  name : String
  documents : List Document

namespace Collection

def new (name : String) : Collection := ⟨name, []⟩

/-- A collection that holds documents; the ones without identifier get the one for their place. -/
def ofDocuments (name : String) (fresh : Nat → ObjectId) (ds : List Document) : Collection :=
  ⟨name, ds.mapIdx (fun i d => d.withId (fresh i))⟩

def size (c : Collection) : Nat :=
  c.documents.length

def isEmpty (c : Collection) : Bool :=
  c.documents.isEmpty

def aggregate (c : Collection) (pipeline : Pipeline) : Except QueryFault (List Document) :=
  pipeline.run c.documents

def find (c : Collection) (query : Document) : Except QueryFault (List Document) :=
  Stage.keep query c.documents

/-- The documents before the first that satisfies a query, that document, and those after it. -/
def splitFirst (query : Document) :
    List Document → Except QueryFault (Option (List Document × Document × List Document))
  | [] => .ok none
  | d :: ds => do
    if ← d.matches query then return some ([], d, ds)
    else
      return (← splitFirst query ds).map (fun (before, found, after) => (d :: before, found, after))

def findOne (c : Collection) (query : Document) : Except QueryFault (Option Document) := do
  return (← splitFirst query c.documents).map (fun (_, found, _) => found)

def holdsId (c : Collection) (id : ObjectId) : Bool :=
  c.documents.any (fun d => (Document.get d idKey).any (fun v => v.same (.objectId id)))

def insert (c : Collection) (fresh : ObjectId) (d : Document) :
    Except InsertFault (ObjectId × Collection) :=
  let d := d.withId fresh
  match (Document.get d idKey).bind Value.asObjectId? with
  | none => .error .identifierKind
  | some id =>
    if c.holdsId id then .error (.duplicateKey id c.name)
    else .ok (id, { c with documents := c.documents ++ [d] })

def findOneAndUpdate (c : Collection) (query update : Document) :
    Except QueryFault (Option Document × Collection) := do
  match ← splitFirst query c.documents with
  | none => return (none, c)
  | some (before, found, after) =>
    let updated ← Document.update found update
    return (some updated, { c with documents := before ++ updated :: after })

def findOneAndDelete (c : Collection) (query : Document) :
    Except QueryFault (Option Document × Collection) := do
  match ← splitFirst query c.documents with
  | none => return (none, c)
  | some (before, found, after) => return (some found, { c with documents := before ++ after })

/-- The documents that do not satisfy a query. -/
def rest (query : Document) : List Document → Except QueryFault (List Document)
  | [] => .ok []
  | d :: ds => do
    let holds ← d.matches query
    let kept ← rest query ds
    return if holds then kept else d :: kept

def deleteMany (c : Collection) (query : Document) : Except QueryFault (Nat × Collection) := do
  let kept ← rest query c.documents
  return (c.size - kept.length, { c with documents := kept })

end Collection

end DocumentStore
