import DocumentStore.Datastore
import DocumentStore.Proofs.Collection.Identity

/-! Runs of requests. A run is any sequence of requests that write, each with the identifiers and
times that were made for it, and a request is served whatever became of those before it. What a
request can do to its collection is said here once for each kind. -/

namespace DocumentStore

/-- A request that writes to the collection of one model. -/
inductive Request (β δ : Type) where
  | create (fresh : ObjectId) (now : Int64) (body : β)
  | update (now : Int64) (id : ObjectId) (change : δ)
  | delete (id : ObjectId)
  | deleteMany (ids : List ObjectId)

namespace Model

variable {β δ : Type} (m : Model β δ)

def single (served : Except ServiceFault (Entity β) × Collection) :
    Except ServiceFault (List (Entity β)) × Collection :=
  (served.1.map ([·]), served.2)

def serve (c : Collection) : Request β δ → Except ServiceFault (List (Entity β)) × Collection
  | .create fresh now body => single (m.create c fresh now body)
  | .update now id change => single (m.update c now id change)
  | .delete id => single (m.delete c id)
  | .deleteMany ids => m.deleteMany c ids

end Model

def faultOf {ε α : Type} : Except ε α → Option ε
  | .ok _ => none
  | .error e => some e

namespace Datastore

inductive Kind where
  | records
  | journeys
  | traces

def collection (s : Datastore) : Kind → Collection
  | .records => s.records
  | .journeys => s.journeys
  | .traces => s.traces

inductive Request where
  | records (r : DocumentStore.Request RecordBody RecordChange)
  | journeys (r : DocumentStore.Request JourneyBody JourneyChange)
  | traces (r : DocumentStore.Request TraceBody TraceChange)
  | updateNested (now : Int64) (ids : List ObjectId) (path : FieldPath) (v : Value)
  | deleteNested (now : Int64) (ids : List ObjectId) (path : FieldPath)

/-- The fault that is answered, if one is, and what is stored afterwards. -/
def serve (s : Datastore) : Request → Option ServiceFault × Datastore
  | .records r =>
    let (answer, c) := Record.model.serve s.records r
    (faultOf answer, { s with records := c })
  | .journeys r =>
    let (answer, c) := Journey.model.serve s.journeys r
    (faultOf answer, { s with journeys := c })
  | .traces r =>
    let (answer, c) := Trace.model.serve s.traces r
    (faultOf answer, { s with traces := c })
  | .updateNested now ids path v =>
    let (answer, c) := Record.updateNested s.records now ids path v
    (faultOf answer, { s with records := c })
  | .deleteNested now ids path =>
    let (answer, c) := Record.deleteNested s.records now ids path
    (faultOf answer, { s with records := c })

/-- What is stored after a run. -/
def run (s : Datastore) : List Request → Datastore
  | [] => s
  | r :: rs => run (s.serve r).2 rs

/-- The faults a run is answered with. -/
def faults (s : Datastore) : List Request → List ServiceFault
  | [] => []
  | r :: rs => (s.serve r).1.toList ++ faults (s.serve r).2 rs

theorem run_append (s : Datastore) (rs rs' : List Request) :
    s.run (rs ++ rs') = (s.run rs).run rs' := by
  induction rs generalizing s with
  | nil => rfl
  | cons r rs ih => exact ih (s.serve r).2

end Datastore

def ServiceFault.isDecode : ServiceFault → Bool
  | decode _ => true
  | _ => false

namespace Model

variable {β δ : Type} (m : Model β δ) {c : Collection}

theorem withId_newDocument {fresh : ObjectId} {now : Int64} {body : β}
    (hid : Document.get (m.newDocument fresh now body) idKey = some (.objectId fresh)) :
    (m.newDocument fresh now body).withId fresh = m.newDocument fresh now body := by
  rw [Document.withId, Document.contains, hid]
  rfl

theorem create_of_held {fresh : ObjectId} {now : Int64} {body : β}
    (hid : Document.get (m.newDocument fresh now body) idKey = some (.objectId fresh))
    (h : c.holdsId fresh = true) :
    m.create c fresh now body = (.error (.insert (.duplicateKey fresh c.name)), c) := by
  have hinsert : c.insert fresh (m.newDocument fresh now body) =
      .error (.duplicateKey fresh c.name) := by
    simp only [Collection.insert, m.withId_newDocument hid, hid, Option.bind_some,
      Value.asObjectId?, h, if_true]
  simp only [create, hinsert]

theorem create_of_new {fresh : ObjectId} {now : Int64} {body : β}
    (hid : Document.get (m.newDocument fresh now body) idKey = some (.objectId fresh))
    (h : c.holdsId fresh = false) :
    m.create c fresh now body = (m.decodeStored (m.newDocument fresh now body),
      { c with documents := c.documents ++ [m.newDocument fresh now body] }) := by
  have hinsert : c.insert fresh (m.newDocument fresh now body) =
      .ok (fresh, { c with documents := c.documents ++ [m.newDocument fresh now body] }) := by
    simp only [Collection.insert, m.withId_newDocument hid, hid, Option.bind_some,
      Value.asObjectId?, h, Bool.false_eq_true, if_false]
  simp only [create, hinsert]

theorem write_of_split {operation : String} {id : ObjectId} {update found updated : Document}
    {before after : List Document}
    (hs : Collection.splitFirst (Query.byId id) c.documents = .ok (some (before, found, after)))
    (hu : Document.update found update = .ok updated) :
    m.write c operation id update =
      (m.decodeStored updated, { c with documents := before ++ updated :: after }) := by
  simp only [write, Collection.findOneAndUpdate, hs, hu, bind, Except.bind]
  rfl

theorem write_of_none {operation : String} {id : ObjectId} {update : Document}
    (hs : Collection.splitFirst (Query.byId id) c.documents = .ok none) :
    m.write c operation id update = (.error (.notFound m.name operation id), c) := by
  simp only [write, Collection.findOneAndUpdate, hs]
  rfl

theorem write_of_error {operation : String} {id : ObjectId} {update : Document} {fault : QueryFault}
    (hs : Collection.splitFirst (Query.byId id) c.documents = .error fault) :
    m.write c operation id update = (.error (.query fault), c) := by
  simp only [write, Collection.findOneAndUpdate, hs]
  rfl

theorem write_cases (c : Collection) (operation : String) (id : ObjectId) (update : Document) :
    (∃ fault, fault.isDecode = false ∧ m.write c operation id update = (.error fault, c)) ∨
    ∃ before found after updated, c.documents = before ++ found :: after ∧
      Document.update found update = .ok updated ∧
      m.write c operation id update = (m.decodeStored updated,
        { c with documents := before ++ updated :: after }) := by
  cases hs : Collection.splitFirst (Query.byId id) c.documents with
  | error fault => exact .inl ⟨.query fault, rfl, m.write_of_error hs⟩
  | ok split =>
    cases split with
    | none => exact .inl ⟨.notFound m.name operation id, rfl, m.write_of_none hs⟩
    | some parts =>
      obtain ⟨before, found, after⟩ := parts
      cases hu : Document.update found update with
      | error fault =>
        refine .inl ⟨.query fault, rfl, ?_⟩
        simp only [write, Collection.findOneAndUpdate, hs, hu, bind, Except.bind]
      | ok updated =>
        exact .inr ⟨before, found, after, updated, (Collection.splitFirst_eq_some_iff.mp hs).1, hu,
          m.write_of_split hs hu⟩

theorem get_of_none {id : ObjectId}
    (h : Collection.splitFirst (Query.byId id) c.documents = .ok none) :
    m.get c id = .error (.notFound m.name "get" id) := by
  rw [get, Collection.findOne, h]
  rfl

theorem get_of_some {id : ObjectId} {before after : List Document} {found : Document}
    (h : Collection.splitFirst (Query.byId id) c.documents = .ok (some (before, found, after))) :
    m.get c id = m.decodeStored found := by
  rw [get, Collection.findOne, h]
  rfl

theorem delete_of_none {id : ObjectId}
    (h : Collection.splitFirst (Query.byId id) c.documents = .ok none) :
    m.delete c id = (.error (.notFound m.name "delete" id), c) := by
  simp only [delete, Collection.findOneAndDelete, h]
  rfl

theorem delete_of_some {id : ObjectId} {before after : List Document} {found : Document}
    (h : Collection.splitFirst (Query.byId id) c.documents = .ok (some (before, found, after))) :
    m.delete c id = (m.decodeStored found, { c with documents := before ++ after }) := by
  simp only [delete, Collection.findOneAndDelete, h]
  rfl

theorem delete_of_error {id : ObjectId} {fault : QueryFault}
    (h : Collection.splitFirst (Query.byId id) c.documents = .error fault) :
    m.delete c id = (.error (.query fault), c) := by
  simp only [delete, Collection.findOneAndDelete, h]
  rfl

theorem deleteMany_nil : m.deleteMany c [] = (.ok [], c) := rfl

theorem deleteMany_of_ok {ids : List ObjectId} {found kept : List Document} (hne : ids ≠ [])
    (hfound : Stage.keep (Query.byIds ids) c.documents = .ok found)
    (hkept : Collection.rest (Query.byIds ids) c.documents = .ok kept) :
    m.deleteMany c ids = (found.mapM m.decodeStored, { c with documents := kept }) := by
  have hfind : c.find (Query.byIds ids) = .ok found := hfound
  have hdelete : c.deleteMany (Query.byIds ids) =
      .ok (c.size - kept.length, { c with documents := kept }) := by
    simp only [Collection.deleteMany, hkept]
    rfl
  have hempty : ids.isEmpty = false := by simpa using hne
  simp only [deleteMany, hempty, Bool.false_eq_true, if_false, hfind, hdelete]

end Model

theorem Record.writeEach_keeps (p : Collection → Prop)
    {write : Collection → ObjectId → Except ServiceFault (List Record) × Collection}
    (hw : ∀ c id, p c → p (write c id).2) (ids : List ObjectId) {c : Collection} (h : p c) :
    p (writeEach write ids c).2 := by
  induction ids generalizing c with
  | nil => exact h
  | cons id ids ih =>
    have hc := hw c id h
    unfold writeEach
    split
    · next hserved =>
      rw [hserved] at hc
      exact hc
    · next hserved =>
      rw [hserved] at hc
      exact ih hc

end DocumentStore
