import DocumentStore.Proofs.Collection.Identity
import DocumentStore.Proofs.FieldPath.Canonical
import DocumentStore.Proofs.Service.Run
import DocumentStore.Proofs.Value.Document

/-! The identifiers of a collection. A request adds one identifier at the end, takes out those it
names, or leaves all of them as they are. After a run there are those that were added and not taken
out since, in the order in which they were added. -/

namespace DocumentStore

namespace Document

theorem sparesId_set (fields : Document) : SparesId [("$set", .document fields)] := by
  intro fields' h
  simp at h

end Document

theorem Record.sparesId_unsetUpdate (now : Int64) {path : FieldPath}
    (h : path.isWithinIdentifier = false) : Document.SparesId (unsetUpdate now path) := by
  intro fields hfields entry hentry
  obtain rfl : fields = [(path.text, .string "")] := by simpa [unsetUpdate] using hfields
  obtain rfl := List.mem_singleton.mp hentry
  rwa [FieldPath.ofString_text]

namespace Model

variable {β δ : Type} (m : Model β δ) {c : Collection} {ids : List ObjectId}

/-- Bodies are written without an identifier. -/
def SparesId : Prop :=
  ∀ body, idKey ∉ (m.writeBody body).map Prod.fst

theorem get_newDocument_id (hm : m.SparesId) (fresh : ObjectId) (now : Int64) (body : β) :
    Document.get (m.newDocument fresh now body) idKey = some (.objectId fresh) := by
  rw [newDocument, Document.get_insert_of_ne _ _ (by decide),
    Document.get_insert_of_ne _ _ (by decide), Document.get_insertAll_of_notMem (hm body)]
  rfl

theorem create_documents (hm : m.SparesId) (h : c.HasIds ids) {fresh : ObjectId}
    (hfresh : fresh ∉ ids) (now : Int64) (body : β) :
    (m.create c fresh now body).2.documents = c.documents ++ [m.newDocument fresh now body] := by
  rw [m.create_of_new (m.get_newDocument_id hm fresh now body) (h.holdsId_of_notMem hfresh)]

theorem write_ids (h : c.HasIds ids) (operation : String) (id : ObjectId) {update : Document}
    (hu : Document.SparesId update) : (m.write c operation id update).2.HasIds ids := by
  rcases m.write_cases c operation id update with
    ⟨fault, -, hw⟩ | ⟨before, found, after, updated, hds, hup, hw⟩
  · rw [hw]
    exact h
  · have hupdated : updated.id? = found.id? := by
      rw [Document.id?_update hup, hu.takesId_eq_false]
      rfl
    rw [hw]
    refine Eq.trans ?_ h
    change (before ++ updated :: after).map Document.id? = _
    rw [hds, List.map_append, List.map_append, List.map_cons, List.map_cons, hupdated]

theorem delete_documents (h : c.HasIds ids) (hn : ids.Nodup) (id : ObjectId) :
    (m.delete c id).2.documents = c.documents.filter (fun d => !d.hasIdIn [id]) := by
  by_cases hid : id ∈ ids
  · obtain ⟨d, hd, he⟩ := h.exists_document hid
    obtain ⟨before, after, hs, hothers⟩ := h.splitFirst_of_mem hn hd he
    have hds := (Collection.splitFirst_eq_some_iff.mp hs).1
    have hnamed : d.hasIdIn [id] = true := by simp [Document.hasIdIn_of_id? _ he]
    rw [m.delete_of_some hs, hds, List.filter_append, List.filter_cons, hnamed, if_neg (by simp),
      ← List.filter_append, List.filter_eq_self.mpr]
    intro other hother
    rw [hothers other hother]
    rfl
  · rw [m.delete_of_none (h.splitFirst_of_notMem hid), List.filter_eq_self.mpr]
    intro d hd
    obtain ⟨id', hid', he⟩ := h.exists_id hd
    have hne : id' ≠ id := fun e => hid (e ▸ hid')
    simp [Document.hasIdIn_of_id? _ he, hne]

/-- A document that is answered is taken out, and one that is not stays in its place. -/
theorem deleteMany_of_hasIds (h : c.HasIds ids) (named : List ObjectId) :
    m.deleteMany c named = ((c.documents.filter (fun d => d.hasIdIn named)).mapM m.decodeStored,
      { c with documents := c.documents.filter (fun d => !d.hasIdIn named) }) := by
  have hanswers := fun d hd => h.matches_byIds named (d := d) hd
  cases named with
  | nil =>
    have hnone : ∀ d ∈ c.documents, d.hasIdIn [] = false := by
      intro d hd
      obtain ⟨id, -, hid⟩ := h.exists_id hd
      simp [Document.hasIdIn_of_id? _ hid]
    have hfound : c.documents.filter (fun d => d.hasIdIn []) = [] :=
      List.filter_eq_nil_iff.mpr fun d hd => by simp [hnone d hd]
    have hkept : c.documents.filter (fun d => !d.hasIdIn []) = c.documents :=
      List.filter_eq_self.mpr fun d hd => by simp [hnone d hd]
    rw [m.deleteMany_nil, hfound, hkept]
    rfl
  | cons id named =>
    exact m.deleteMany_of_ok (by simp) (Collection.keep_of_answers hanswers)
      (Collection.rest_of_answers hanswers)

theorem deleteMany_documents (h : c.HasIds ids) (named : List ObjectId) :
    (m.deleteMany c named).2.documents = c.documents.filter (fun d => !d.hasIdIn named) := by
  rw [m.deleteMany_of_hasIds h]

end Model

theorem Record.sparesId : Record.model.SparesId := by
  intro body
  simp [Record.model, RecordBody.toDocument, presentField, idKey]

theorem Journey.sparesId : Journey.model.SparesId := by
  intro body
  simp [Journey.model, JourneyBody.toDocument, presentField, idKey]

theorem Trace.sparesId : Trace.model.SparesId := by
  intro body
  simp [Trace.model, TraceBody.toDocument, presentField, idKey]

/-- What becomes of the identifiers of a collection. -/
inductive Effect where
  | adds (id : ObjectId)
  | keeps
  | removes (ids : List ObjectId)

namespace Effect

/-- An effect on the documents of a collection. Those whose identifiers are kept may have changed,
and those that are left by a removal have not. -/
def Holds (before after : List Document) : Effect → Prop
  | adds id => ∃ d, d.id? = .ok id ∧ after = before ++ [d]
  | keeps => after.map Document.id? = before.map Document.id?
  | removes ids => after = before.filter (fun d => !d.hasIdIn ids)

def added? : Effect → Option ObjectId
  | adds id => some id
  | _ => none

def takes (id : ObjectId) : Effect → Bool
  | removes ids => ids.contains id
  | _ => false

/-- The identifiers that are added and not taken out since. -/
def survivors : List Effect → List ObjectId
  | [] => []
  | adds id :: es => if es.any (takes id) then survivors es else id :: survivors es
  | _ :: es => survivors es

theorem filterMap_added_cons (e : Effect) (es : List Effect) :
    (e :: es).filterMap added? = e.added?.toList ++ es.filterMap added? := by
  rw [List.filterMap_cons]
  cases e.added? <;> rfl

theorem survivors_sublist (es : List Effect) : (survivors es).Sublist (es.filterMap added?) := by
  induction es with
  | nil => exact .slnil
  | cons e es ih =>
    cases e with
    | adds id =>
      rw [survivors, List.filterMap_cons_some (by rfl)]
      split
      · exact ih.cons id
      · exact ih.cons_cons id
    | keeps => exact ih
    | removes ids => exact ih

/-- What is left of identifiers by one effect. -/
def leaves (ids : List ObjectId) : Effect → List ObjectId
  | adds id => ids ++ [id]
  | keeps => ids
  | removes named => ids.filter (fun id => !named.contains id)

theorem Holds.hasIds {c c' : Collection} {ids : List ObjectId} {e : Effect} (h : c.HasIds ids)
    (he : e.Holds c.documents c'.documents) : c'.HasIds (e.leaves ids) := by
  unfold Collection.HasIds
  cases e with
  | adds id =>
    obtain ⟨d, hd, hds⟩ := he
    rw [hds, List.map_append, h, leaves, List.map_append]
    simp [hd]
  | keeps => exact Eq.trans he h
  | removes named =>
    have hds : c'.documents = _ := he
    rw [hds]
    exact h.filter named

theorem survivors_of_start (ids : List ObjectId) (e : Effect) (es : List Effect) :
    (e.leaves ids).filter (fun id => !es.any (takes id)) ++ survivors es =
      ids.filter (fun id => !(e :: es).any (takes id)) ++ survivors (e :: es) := by
  cases e with
  | adds id =>
    have hfilter : ids.filter (fun i => !(adds id :: es).any (takes i)) =
        ids.filter (fun i => !es.any (takes i)) := rfl
    rw [hfilter, leaves, List.filter_append, survivors, List.append_assoc]
    cases h : es.any (takes id) <;> simp [h]
  | keeps => rfl
  | removes named =>
    change _ = _ ++ survivors es
    rw [leaves, List.filter_filter]
    congr 1
    refine List.filter_congr ?_
    intro id _
    simp [takes, Bool.and_comm]

theorem leaves_sublist (ids rest : List ObjectId) (e : Effect) :
    (e.leaves ids ++ rest).Sublist (ids ++ (e.added?.toList ++ rest)) := by
  cases e with
  | adds id => rw [leaves, List.append_assoc]; rfl
  | keeps => exact .refl _
  | removes named => exact List.filter_sublist.append (.refl _)

end Effect

namespace Request

variable {β δ : Type}

def effect : Request β δ → Effect
  | create fresh _ _ => .adds fresh
  | update _ _ _ => .keeps
  | delete id => .removes [id]
  | deleteMany ids => .removes ids

end Request

theorem Model.serve_holds {β δ : Type} {m : Model β δ} (hm : m.SparesId) {c : Collection}
    {ids : List ObjectId} (h : c.HasIds ids) (hn : ids.Nodup) (r : Request β δ)
    (hfresh : ∀ id, r.effect = .adds id → id ∉ ids) :
    r.effect.Holds c.documents (m.serve c r).2.documents := by
  cases r with
  | create fresh now body =>
    have hid := Document.id?_eq_ok_iff.mpr (m.get_newDocument_id hm fresh now body)
    exact ⟨_, hid, m.create_documents hm h (hfresh fresh rfl) now body⟩
  | update now id change =>
    have hkept : (m.update c now id change).2.HasIds ids :=
      m.write_ids h "update" id (Document.sparesId_set _)
    exact Eq.trans hkept h.symm
  | delete id => exact m.delete_documents h hn id
  | deleteMany named => exact m.deleteMany_documents h named

namespace Record

theorem updateNested_ids {c : Collection} {ids : List ObjectId} (h : c.HasIds ids) (now : Int64)
    (named : List ObjectId) (path : FieldPath) (v : Value) :
    (updateNested c now named path v).2.HasIds ids := by
  unfold updateNested
  split
  · exact h
  · exact writeEach_keeps (Collection.HasIds · ids)
      (fun c id hc => model.write_ids hc "update_nested_value" id (Document.sparesId_set _)) named h

theorem isWithinIdentifier_of_checkWritable {path : FieldPath} (h : checkWritable path = .ok ()) :
    path.isWithinIdentifier = false := by
  unfold checkWritable at h
  cases hw : path.isWithinIdentifier with
  | false => rfl
  | true =>
    rw [hw] at h
    split at h <;> cases h

theorem deleteNested_ids {c : Collection} {ids : List ObjectId} (h : c.HasIds ids) (now : Int64)
    (named : List ObjectId) (path : FieldPath) :
    (deleteNested c now named path).2.HasIds ids := by
  unfold deleteNested
  split
  · exact h
  · next hpath =>
    have hspares := sparesId_unsetUpdate now (isWithinIdentifier_of_checkWritable hpath)
    exact writeEach_keeps (Collection.HasIds · ids)
      (fun c id hc => model.write_ids hc "delete_nested_value" id hspares) named h

end Record

namespace Datastore

/-- What a request does to the identifiers of one of the collections. -/
def Request.effect (k : Kind) : Request → Effect
  | .records r => match k with | .records => r.effect | _ => .keeps
  | .journeys r => match k with | .journeys => r.effect | _ => .keeps
  | .traces r => match k with | .traces => r.effect | _ => .keeps
  | .updateNested _ _ _ _ => .keeps
  | .deleteNested _ _ _ => .keeps

theorem serve_holds {s : Datastore} {k : Kind} {ids : List ObjectId}
    (h : (s.collection k).HasIds ids) (hn : ids.Nodup) (r : Request)
    (hfresh : ∀ id, r.effect k = .adds id → id ∉ ids) :
    (r.effect k).Holds (s.collection k).documents ((s.serve r).2.collection k).documents := by
  cases r with
  | records r =>
    cases k with
    | records => exact Record.model.serve_holds Record.sparesId h hn r hfresh
    | _ => exact rfl
  | journeys r =>
    cases k with
    | journeys => exact Model.serve_holds Journey.sparesId h hn r hfresh
    | _ => exact rfl
  | traces r =>
    cases k with
    | traces => exact Model.serve_holds Trace.sparesId h hn r hfresh
    | _ => exact rfl
  | updateNested now named path v =>
    cases k with
    | records => exact Eq.trans (Record.updateNested_ids h now named path v) h.symm
    | _ => exact rfl
  | deleteNested now named path =>
    cases k with
    | records => exact Eq.trans (Record.deleteNested_ids h now named path) h.symm
    | _ => exact rfl

/-- The identifiers that a run adds to one of the collections. -/
def added (k : Kind) (rs : List Request) : List ObjectId :=
  (rs.map (Request.effect k)).filterMap Effect.added?

/-- Those of them that are not taken out later in the run. -/
def survivors (k : Kind) (rs : List Request) : List ObjectId :=
  Effect.survivors (rs.map (Request.effect k))

theorem added_cons (k : Kind) (r : Request) (rs : List Request) :
    added k (r :: rs) = (r.effect k).added?.toList ++ added k rs :=
  Effect.filterMap_added_cons _ _

theorem added_append (k : Kind) (rs rs' : List Request) :
    added k (rs ++ rs') = added k rs ++ added k rs' := by
  rw [added, List.map_append, List.filterMap_append, added, added]

theorem run_hasIds {s : Datastore} {k : Kind} {ids : List ObjectId}
    (h : (s.collection k).HasIds ids) {rs : List Request} (hn : (ids ++ added k rs).Nodup) :
    ((s.run rs).collection k).HasIds
      (ids.filter (fun id => !(rs.map (Request.effect k)).any (Effect.takes id)) ++
        survivors k rs) := by
  induction rs generalizing s ids with
  | nil => simpa [survivors, Effect.survivors, run] using h
  | cons r rs ih =>
    rw [added_cons] at hn
    have hfresh : ∀ id, r.effect k = .adds id → id ∉ ids := by
      intro id he hid
      have hadded : id ∈ (r.effect k).added?.toList ++ added k rs := by simp [he, Effect.added?]
      exact (List.nodup_append.mp hn).2.2 id hid id hadded rfl
    have hnext := (serve_holds h (List.nodup_append.mp hn).1 r hfresh).hasIds h
    rw [List.map_cons, survivors, List.map_cons, ← Effect.survivors_of_start]
    exact ih hnext (hn.sublist (Effect.leaves_sublist ids (added k rs) (r.effect k)))

theorem empty_hasIds (k : Kind) : (empty.collection k).HasIds [] := by
  cases k <;> rfl

theorem run_empty_hasIds {k : Kind} {rs : List Request} (hn : (added k rs).Nodup) :
    ((empty.run rs).collection k).HasIds (survivors k rs) :=
  run_hasIds (empty_hasIds k) hn

theorem survivors_nodup {k : Kind} {rs : List Request} (hn : (added k rs).Nodup) :
    (survivors k rs).Nodup :=
  hn.sublist (Effect.survivors_sublist _)

/-- Every document of a collection has an identifier. After any run whose new identifiers are
distinct these are, in the order in which they were added, the identifiers that were added and not
taken out since. At each point of the run only a removal takes documents out, and only ones it
names; an update or a write inside records leaves every identifier as it is. -/
theorem identity_of_run (k : Kind) (rs : List Request) (hfresh : (added k rs).Nodup) :
    ((empty.run rs).collection k).documents.map Document.id? = (survivors k rs).map .ok ∧
      (survivors k rs).Nodup ∧
      ∀ before r after, rs = before ++ r :: after →
        (r.effect k).Holds ((empty.run before).collection k).documents
          ((empty.run (before ++ [r])).collection k).documents := by
  refine ⟨run_empty_hasIds hfresh, survivors_nodup hfresh, ?_⟩
  rintro before r after rfl
  rw [added_append, added_cons] at hfresh
  obtain ⟨hbefore, -, hdisjoint⟩ := List.nodup_append.mp hfresh
  rw [run_append]
  refine serve_holds (run_empty_hasIds hbefore) (survivors_nodup hbefore) r ?_
  intro id he hid
  have hearlier : id ∈ added k before := (Effect.survivors_sublist _).subset hid
  have hadded : id ∈ (r.effect k).added?.toList ++ added k after := by simp [he, Effect.added?]
  exact hdisjoint id hearlier id hadded rfl

/-- The writes try to reach the identifier itself and something below it. -/
theorem identity_of_run_records :
    let id (n : UInt8) : ObjectId := ⟨List.replicate 12 n, List.length_replicate⟩
    let body := RecordBody.embedded "photo" .null
    let rs : List Request := [.records (.create (id 1) 0 body), .records (.create (id 2) 0 body),
      .updateNested 1 [id 1, id 2] (.ofString "[ _id ]") (.int32 5),
      .deleteNested 2 [id 2] (.ofString "_id.0"),
      .records (.deleteMany [id 1, id 3]), .records (.create (id 3) 3 body)]
    (added .records rs).Nodup ∧
      ((empty.run rs).collection .records).documents.map Document.id? =
        [.ok (id 2), .ok (id 3)] := by
  intro id body rs
  have hfresh : (added .records rs).Nodup := by decide
  have hsurvivors : survivors .records rs = [id 2, id 3] := by decide
  obtain ⟨hids, -⟩ := identity_of_run .records rs hfresh
  rw [hsurvivors] at hids
  exact ⟨hfresh, hids⟩

end Datastore

end DocumentStore
