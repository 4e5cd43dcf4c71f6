import DocumentStore.Entity.Journey
import DocumentStore.Entity.Trace
import DocumentStore.Service.Nested

/-! The collections of records, journeys and traces together. -/

namespace DocumentStore

structure Datastore where
  records : Collection
  journeys : Collection
  traces : Collection

namespace Datastore

/-- Each collection is opened by the name that its model gives. -/
def ofCollections (openCollection : String → Collection) : Datastore where
  records := openCollection Record.model.collectionName
  journeys := openCollection Journey.model.collectionName
  traces := openCollection Trace.model.collectionName

def empty : Datastore :=
  ofCollections Collection.new

def traceRecords (s : Datastore) (id : ObjectId) (page : Pagination) (projection : Projection) :
    Except ServiceFault (Listing Record) := do
  let trace ← Trace.model.get s.traces id
  Record.model.filtered s.records trace.body.filters page projection

end Datastore

end DocumentStore
