import DocumentStore.Entity.Basic
import DocumentStore.Pipeline.Listing
import DocumentStore.Service.Fault
import DocumentStore.Text.Quoted

/-! Requests on the entities of one model. Identifiers and the time are given, not made. A request
that writes answers beside the collection it leaves, which may have changed although the answer is a
fault: a document that was written but cannot be read back stays written. -/

namespace DocumentStore.Model

variable {β δ : Type}

def decodeStored (m : Model β δ) (d : Document) : Except ServiceFault (Entity β) :=
  (m.decode d).mapError .decode

def newDocument (m : Model β δ) (fresh : ObjectId) (now : Int64) (body : β) : Document :=
  let d := Document.insertAll [(idKey, .objectId fresh)] (m.writeBody body)
  Document.insert (Document.insert d createdAtKey (.dateTime now)) updatedAtKey (.dateTime now)

def create (m : Model β δ) (c : Collection) (fresh : ObjectId) (now : Int64) (body : β) :
    Except ServiceFault (Entity β) × Collection :=
  let d := m.newDocument fresh now body
  match c.insert fresh d with
  | .ok (_, c) => (m.decodeStored d, c)
  | .error fault => (.error (.insert fault), c)

def get (m : Model β δ) (c : Collection) (id : ObjectId) : Except ServiceFault (Entity β) :=
  match c.findOne (Query.byId id) with
  | .ok (some d) => m.decodeStored d
  | .ok none => .error (.notFound m.name "get" id)
  | .error fault => .error (.query fault)

def write (m : Model β δ) (c : Collection) (operation : String) (id : ObjectId)
    (update : Document) : Except ServiceFault (Entity β) × Collection :=
  match c.findOneAndUpdate (Query.byId id) update with
  | .ok (some d, c) => (m.decodeStored d, c)
  | .ok (none, c) => (.error (.notFound m.name operation id), c)
  | .error fault => (.error (.query fault), c)

/-- The update of a change, with the time at which it was made. -/
def changeUpdate (m : Model β δ) (now : Int64) (change : δ) : Document :=
  [("$set", .document
    (Document.insert (m.writeChange change) updatedAtKey (.dateTime now)))]

def update (m : Model β δ) (c : Collection) (now : Int64) (id : ObjectId) (change : δ) :
    Except ServiceFault (Entity β) × Collection :=
  m.write c "update" id (m.changeUpdate now change)

def delete (m : Model β δ) (c : Collection) (id : ObjectId) :
    Except ServiceFault (Entity β) × Collection :=
  match c.findOneAndDelete (Query.byId id) with
  | .ok (some d, c) => (m.decodeStored d, c)
  | .ok (none, c) => (.error (.notFound m.name "delete" id), c)
  | .error fault => (.error (.query fault), c)

/-- Removes the entities with one of several identifiers; those without an entity are skipped. -/
def deleteMany (m : Model β δ) (c : Collection) (ids : List ObjectId) :
    Except ServiceFault (List (Entity β)) × Collection :=
  if ids.isEmpty then (.ok [], c)
  else
    match c.find (Query.byIds ids), c.deleteMany (Query.byIds ids) with
    | .ok found, .ok (_, c) => (found.mapM m.decodeStored, c)
    | .error fault, _ => (.error (.query fault), c)
    | _, .error fault => (.error (.query fault), c)

/-- The documents of a page of a plan, with the number of all that match. -/
def runPlan (m : Model β δ) (c : Collection) (plan : MatchPlan) (page : Pagination)
    (projection : Projection) : Except QueryFault (Listing Document) := do
  let counted ← c.aggregate (Pipeline.counting plan)
  let results ← c.aggregate (Pipeline.listing plan page projection m.bulkField)
  return .new page (Pipeline.readCount counted) results

def filteredDocuments (m : Model β δ) (c : Collection) (s : FilterSet) (page : Pagination)
    (projection : Projection) : Except ServiceFault (Listing Document) := do
  let plan ← (MatchPlan.ofFilterSet s).mapError .filter
  (m.runPlan c plan page projection).mapError .query

def filtered (m : Model β δ) (c : Collection) (s : FilterSet) (page : Pagination)
    (projection : Projection) : Except ServiceFault (Listing (Entity β)) := do
  (← m.filteredDocuments c s page projection).mapResult m.decodeStored

def all (m : Model β δ) (c : Collection) (page : Pagination) :
    Except ServiceFault (Listing (Entity β)) :=
  m.filtered c .empty page .full

def description (m : Model β δ) (c : Collection) : String :=
  "CrudService \x7b model: " ++ Text.quoted m.name ++ ", collection: " ++ Text.quoted c.name ++
    " \x7d"

end DocumentStore.Model
