import DocumentStore.Proofs.Entity.Nested
import DocumentStore.Proofs.Service.Answer

/-! Runs after which every stored document can be read. Only a body or a change that is not read
back, or a write inside records, stores a document that cannot be read, and the request that stores
it is answered by a fault of decoding. -/

namespace DocumentStore

/-- A request that writes only what is read back. -/
def Request.Writes {β δ : Type} (bodies : β → Prop) (changes : δ → Prop) : Request β δ → Prop
  | create _ _ body => bodies body
  | update _ _ change => changes change
  | delete _ => True
  | deleteMany _ => True

theorem Model.write_all {β δ : Type} {m : Model β δ} {p : Document → Prop} {c : Collection}
    {operation : String} {id : ObjectId} {update : Document} (h : c.All p)
    (hu : ∀ found updated, p found → Document.update found update = .ok updated → p updated) :
    (m.write c operation id update).2.All p := by
  rcases m.write_cases c operation id update with
    ⟨fault, -, hwrite⟩ | ⟨before, found, after, updated, hds, hupdated, hwrite⟩
  · rw [hwrite]
    exact h
  · obtain ⟨-, hfound, -⟩ := h.split hds
    rw [hwrite]
    exact h.replace hds (hu found updated hfound hupdated)

namespace Model.Keeps

variable {β δ : Type} {m : Model β δ} {σ : Schema} {bodies : β → Prop} {changes : δ → Prop}
  (hk : m.Keeps σ bodies changes) {c : Collection}

include hk

theorem holds_newDocument {body : β} (hbody : bodies body) (fresh : ObjectId) (now : Int64) :
    σ.Holds (m.newDocument fresh now body) where
  accepted := by
    intro entry hentry
    rcases Document.mem_of_mem_insert hentry with rfl | hentry
    · exact hk.updatedAt now
    · rcases Document.mem_of_mem_insert hentry with rfl | hentry
      · exact hk.createdAt now
      · rcases Document.mem_of_mem_insertAll hentry with hentry | hentry
        · obtain rfl := List.mem_singleton.mp hentry
          exact hk.id fresh
        · exact hk.body body hbody entry hentry
  present := by
    intro key hkey
    have hwritten := hk.required body key hkey
    simp only [List.mem_cons, List.mem_append, List.not_mem_nil, or_false] at hwritten
    refine Document.isSome_get_insert ?_
    rcases hwritten with hid | hbody | hcreated | hupdated
    · have hstart : (Document.get [(idKey, .objectId fresh)] key).isSome = true := by
        rw [hid]
        rfl
      exact .inr (Document.isSome_get_insert (.inr (Document.isSome_get_insertAll (.inr hstart))))
    · exact .inr (Document.isSome_get_insert (.inr (Document.isSome_get_insertAll (.inl hbody))))
    · exact .inr (Document.isSome_get_insert (.inl hcreated))
    · exact .inl hupdated

theorem holds_changeUpdate {change : δ} (hchange : changes change) {now : Int64}
    {found updated : Document} (h : σ.Holds found)
    (hu : Document.update found (m.changeUpdate now change) = .ok updated) : σ.Holds updated := by
  refine h.update_set (fun entry hentry => ?_) hu
  rcases Document.mem_of_mem_insert hentry with rfl | hentry
  · exact (hk.sets_updatedAt now).permits
  · exact (hk.change change hchange entry hentry).permits

theorem serve_all (hm : m.SparesId) (h : c.All σ.Holds) {r : Request β δ}
    (hr : r.Writes bodies changes) : (m.serve c r).2.All σ.Holds := by
  cases r with
  | create fresh now body =>
    change (m.create c fresh now body).2.All σ.Holds
    rcases m.create_cases hm c fresh now body with ⟨fault, -, hcreate⟩ | hcreate
    · rw [hcreate]
      exact h
    · rw [hcreate]
      exact h.append (hk.holds_newDocument hr fresh now)
  | update now id change =>
    exact Model.write_all h fun _ _ hfound hu => hk.holds_changeUpdate hr hfound hu
  | delete id =>
    change (m.delete c id).2.All σ.Holds
    rcases m.delete_cases c id with ⟨fault, -, hdelete⟩ | ⟨before, found, after, hds, hdelete⟩
    · rw [hdelete]
      exact h
    · rw [hdelete]
      exact h.remove hds
  | deleteMany ids =>
    change (m.deleteMany c ids).2.All σ.Holds
    rcases m.deleteMany_cases c ids with ⟨fault, -, hdelete⟩ | ⟨named, hdelete⟩
    · rw [hdelete]
      exact h
    · rw [hdelete]
      exact h.filter _

end Model.Keeps

namespace Record

theorem updateNested_all {c : Collection} (h : c.All soundSchema.Holds) (now : Int64)
    (ids : List ObjectId) {path : FieldPath} {v : Value} (hv : AllowsSet v path) :
    (updateNested c now ids path v).2.All soundSchema.Holds := by
  unfold updateNested
  split
  · exact h
  · refine writeEach_keeps (Collection.All soundSchema.Holds) (fun c id hc => ?_) ids h
    exact Model.write_all hc fun _ _ hfound hu => holds_setUpdate hfound hv hu

theorem deleteNested_all {c : Collection} (h : c.All soundSchema.Holds) (now : Int64)
    (ids : List ObjectId) {path : FieldPath} (hpath : AllowsUnset path) :
    (deleteNested c now ids path).2.All soundSchema.Holds := by
  unfold deleteNested
  split
  · exact h
  · refine writeEach_keeps (Collection.All soundSchema.Holds) (fun c id hc => ?_) ids h
    exact Model.write_all hc fun _ _ hfound hu => holds_unsetUpdate hfound hpath hu

end Record

namespace Datastore

/-- A request that stores only what is read back. -/
def Request.IsReadable : Request → Prop
  | .records r => r.Writes RecordBody.IsReadable RecordChange.IsReadable
  | .journeys r => r.Writes JourneyBody.IsReadable JourneyChange.IsReadable
  | .traces r => r.Writes TraceBody.IsReadable TraceChange.IsReadable
  | .updateNested _ _ path v => Record.AllowsSet v path
  | .deleteNested _ _ path => Record.AllowsUnset path

/-- Every stored document follows the schema of its collection. -/
structure Sound (s : Datastore) : Prop where
  records : s.records.All Record.soundSchema.Holds
  journeys : s.journeys.All Journey.schema.Holds
  traces : s.traces.All Trace.schema.Holds

theorem Sound.serve {s : Datastore} (h : s.Sound) {r : Request} (hr : r.IsReadable) :
    (s.serve r).2.Sound := by
  cases r with
  | records r => exact { h with records := Record.keeps.serve_all Record.sparesId h.records hr }
  | journeys r =>
    exact { h with journeys := Journey.keeps.serve_all Journey.sparesId h.journeys hr }
  | traces r => exact { h with traces := Trace.keeps.serve_all Trace.sparesId h.traces hr }
  | updateNested now ids path v =>
    exact { h with records := Record.updateNested_all h.records now ids hr }
  | deleteNested now ids path =>
    exact { h with records := Record.deleteNested_all h.records now ids hr }

theorem Sound.run {s : Datastore} (h : s.Sound) {rs : List Request} (hrs : ∀ r ∈ rs, r.IsReadable) :
    (s.run rs).Sound := by
  induction rs generalizing s with
  | nil => exact h
  | cons r rs ih => exact ih (h.serve (hrs r (by simp))) (fun r' hr' => hrs r' (by simp [hr']))

structure Decodes (s : Datastore) : Prop where
  records : s.records.All Record.model.Decodes
  journeys : s.journeys.All Journey.model.Decodes
  traces : s.traces.All Trace.model.Decodes

theorem Sound.decodes {s : Datastore} (h : s.Sound) : s.Decodes where
  records := fun d hd => Record.keeps.decodes d (h.records d hd)
  journeys := fun d hd => Journey.keeps.decodes d (h.journeys d hd)
  traces := fun d hd => Trace.keeps.decodes d (h.traces d hd)

theorem clean_serve_iff {s : Datastore} (h : s.Decodes) (r : Request) :
    (∀ fault ∈ (s.serve r).1, fault.isDecode = false) ↔ (s.serve r).2.Decodes := by
  cases r with
  | records r =>
    have hserved := Record.model.clean_serve_iff Record.sparesId h.records r
    refine (clean_faultOf_iff.trans hserved).trans ?_
    exact ⟨fun hall => { h with records := hall }, Decodes.records⟩
  | journeys r =>
    have hserved := Journey.model.clean_serve_iff Journey.sparesId h.journeys r
    refine (clean_faultOf_iff.trans hserved).trans ?_
    exact ⟨fun hall => { h with journeys := hall }, Decodes.journeys⟩
  | traces r =>
    have hserved := Trace.model.clean_serve_iff Trace.sparesId h.traces r
    refine (clean_faultOf_iff.trans hserved).trans ?_
    exact ⟨fun hall => { h with traces := hall }, Decodes.traces⟩
  | updateNested now ids path v =>
    have hserved := Record.clean_updateNested_iff h.records now ids path v
    refine (clean_faultOf_iff.trans hserved).trans ?_
    exact ⟨fun hall => { h with records := hall }, Decodes.records⟩
  | deleteNested now ids path =>
    have hserved := Record.clean_deleteNested_iff h.records now ids path
    refine (clean_faultOf_iff.trans hserved).trans ?_
    exact ⟨fun hall => { h with records := hall }, Decodes.records⟩

theorem clean_faults_iff {s : Datastore} (h : s.Decodes) (rs : List Request) :
    (∀ fault ∈ s.faults rs, fault.isDecode = false) ↔
      ∀ before after, rs = before ++ after → (s.run before).Decodes := by
  induction rs generalizing s with
  | nil =>
    refine iff_of_true (by simp [faults]) (fun before after hsplit => ?_)
    obtain ⟨rfl, -⟩ := List.append_eq_nil_iff.mp hsplit.symm
    exact h
  | cons r rs ih =>
    constructor
    · intro hfaults
      obtain ⟨hfirst, hrest⟩ := List.forall_mem_append.mp hfaults
      have hserved : (s.serve r).2.Decodes :=
        (clean_serve_iff h r).mp fun fault hf => hfirst fault (Option.mem_toList.mpr hf)
      intro before after hsplit
      cases before with
      | nil => exact h
      | cons r' before =>
        obtain ⟨rfl, hlater⟩ := List.cons.inj hsplit
        exact (ih hserved).mp hrest before after hlater
    · intro hruns
      have hserved : (s.serve r).2.Decodes := hruns [r] rs rfl
      refine List.forall_mem_append.mpr ⟨fun fault hf => ?_, (ih hserved).mpr ?_⟩
      · exact (clean_serve_iff h r).mpr hserved fault (Option.mem_toList.mp hf)
      · intro before after hsplit
        exact hruns (r :: before) after (by rw [hsplit, List.cons_append])

end Datastore

/-- Every document is read as an entity, and no reading request is answered by a fault of decoding.
-/
structure Model.Readable {β δ : Type} (m : Model β δ) (c : Collection) : Prop where
  documents : ∀ d ∈ c.documents, ∃ e, m.decode d = .ok e
  get : ∀ id fault, m.get c id = .error fault → fault.report.code ≠ .deserializationError
  all : ∀ page fault, m.all c page = .error fault → fault.report.code ≠ .deserializationError
  filtered : ∀ s page projection fault, m.filtered c s page projection = .error fault →
    fault.report.code ≠ .deserializationError

theorem Model.readable_iff {β δ : Type} {m : Model β δ} (hm : m.ListsReadably) {c : Collection} :
    m.Readable c ↔ c.All m.Decodes := by
  refine ⟨Readable.documents, fun h => ⟨h, ?_, ?_, ?_⟩⟩
  · intro id fault he
    exact ServiceFault.code_ne_deserializationError_iff.mpr (clean_get h id fault he)
  · intro page fault he
    have hclean : Clean (m.all c page) := clean_filtered hm h .empty page .full
    exact ServiceFault.code_ne_deserializationError_iff.mpr (hclean fault he)
  · intro s page projection fault he
    have hclean := clean_filtered hm h s page projection
    exact ServiceFault.code_ne_deserializationError_iff.mpr (hclean fault he)

namespace Datastore

structure Readable (s : Datastore) : Prop where
  records : Record.model.Readable s.records
  journeys : Journey.model.Readable s.journeys
  traces : Trace.model.Readable s.traces

theorem readable_iff {s : Datastore} : s.Readable ↔ s.Decodes := by
  constructor
  · intro h
    exact ⟨(Model.readable_iff Record.listsReadably).mp h.records,
      (Model.readable_iff Journey.listsReadably).mp h.journeys,
      (Model.readable_iff Trace.listsReadably).mp h.traces⟩
  · intro h
    exact ⟨(Model.readable_iff Record.listsReadably).mpr h.records,
      (Model.readable_iff Journey.listsReadably).mpr h.journeys,
      (Model.readable_iff Trace.listsReadably).mpr h.traces⟩

theorem empty_sound : empty.Sound := by
  constructor <;> exact fun _ hd => nomatch hd

/-- A run is answered without a fault of decoding exactly if at each point of it every stored
document is read and so is every listing. Runs whose requests store only what is read back are such
runs. -/
theorem readable_of_run (rs : List Request) :
    ((∀ fault ∈ empty.faults rs, fault.report.code ≠ .deserializationError) ↔
      ∀ before after, rs = before ++ after → (empty.run before).Readable) ∧
    ((∀ r ∈ rs, r.IsReadable) →
      ∀ before after, rs = before ++ after → (empty.run before).Readable) := by
  simp only [ServiceFault.code_ne_deserializationError_iff, readable_iff]
  refine ⟨clean_faults_iff empty_sound.decodes rs, ?_⟩
  rintro hrs before after rfl
  exact (empty_sound.run fun r hr => hrs r (List.mem_append_left after hr)).decodes

/-- A trace with a filter, and a photo whose data are written into. -/
theorem readable_of_run_photo :
    let id : ObjectId := ⟨List.replicate 12 0, List.length_replicate⟩
    let sea : FilterSet := ⟨[.leaf ⟨.ofString "title", false, .equals "sea"⟩]⟩
    let photo : RecordBody := .embedded "photo" (.document [("km", .int64 7)])
    let rs : List Request := [.records (.create id 0 photo),
      .traces (.create id 1 (.new "sea" "ann" sea)),
      .updateNested 2 [id] (.ofString "content.data.km") (.string "eight"),
      .deleteNested 3 [id] (.ofString "description"),
      .records (.update 4 id { title := some "sea" })]
    (∀ r ∈ rs, r.IsReadable) ∧ (empty.run rs).Readable ∧
      ∀ fault ∈ empty.faults rs, fault.report.code ≠ .deserializationError := by
  intro id sea photo rs
  have hphoto : photo.IsReadable := by
    rintro data ⟨⟩
    rfl
  have hsea : sea.Valid := by
    intro e he
    obtain rfl := List.mem_singleton.mp he
    exact ⟨by decide +kernel, trivial⟩
  have hset : Record.AllowsSet (.string "eight") (.ofString "content.data.km") := by
    have hsegments : (FieldPath.ofString "content.data.km").segments =
        ["content", "data", "km"] := by
      decide +kernel
    rw [Record.AllowsSet, hsegments]
    exact ⟨rfl, by decide⟩
  have hunset : Record.AllowsUnset (.ofString "description") := by
    have hsegments : (FieldPath.ofString "description").segments = ["description"] := by
      decide +kernel
    rw [Record.AllowsUnset, hsegments]
    exact (by decide : "description" ∉ Record.schema.required)
  have hrs : ∀ r ∈ rs, r.IsReadable := by
    simp only [rs, List.forall_mem_cons, List.not_mem_nil, false_imp_iff, implies_true, and_true]
    exact ⟨hphoto, hsea, hset, hunset, fun _ h => nomatch h⟩
  obtain ⟨hiff, hreadable⟩ := readable_of_run rs
  exact ⟨hrs, hreadable hrs rs [] (List.append_nil rs).symm, hiff.mpr (hreadable hrs)⟩

/-- The value that is written is not compared with the field it goes to. -/
theorem not_readable_after_untyped_write :
    let id : ObjectId := ⟨List.replicate 12 0, List.length_replicate⟩
    let photo (title : Value) (updatedAt : Int64) : Document :=
      [(idKey, .objectId id), ("title", title), ("dataType", .string "NOTREFERENCED"),
        ("tags", .array []), ("content", .document [("data", .null)]), (createdAtKey, .dateTime 0),
        (updatedAtKey, .dateTime updatedAt)]
    let created : Request := .records (.create id 0 (.embedded "photo" .null))
    let rs : List Request := [created, .updateNested 1 [id] (.ofString "title") (.int32 5)]
    (empty.run rs).records.documents = [photo (.int32 5) 1] ∧
      Record.model.decode (photo (.int32 5) 1) = .error .mistyped ∧
      ∃ fault, Record.model.get (empty.run rs).records id = .error fault ∧
        fault.report.code = .deserializationError := by
  intro id photo created rs
  have hfind (title : Value) (updatedAt : Int64) :
      Collection.splitFirst (Query.byId id) [photo title updatedAt] =
        .ok (some ([], photo title updatedAt, [])) := by
    have hid : Document.id? (photo title updatedAt) = .ok id := rfl
    rw [Collection.splitFirst, Query.matches_byId hid]
    rfl
  have hupdate : Document.update (photo (.string "photo") 0)
      (Record.setUpdate 1 (.ofString "title") (.int32 5)) = .ok (photo (.int32 5) 1) :=
    Record.update_setUpdate _ 1 "title" (.int32 5) (by decide +kernel) (by decide) (by decide)
  have hwrite : Record.model.write ⟨"records", [photo (.string "photo") 0]⟩ "update_nested_value" id
      (Record.setUpdate 1 (.ofString "title") (.int32 5)) =
        (Record.model.decodeStored (photo (.int32 5) 1), ⟨"records", [photo (.int32 5) 1]⟩) :=
    Record.model.write_of_split (c := ⟨"records", _⟩) (hfind (.string "photo") 0) hupdate
  have hcreated : (empty.run [created]).records = ⟨"records", [photo (.string "photo") 0]⟩ := rfl
  have hwritable : Record.checkWritable (.ofString "title") = .ok () := by
    rw [Record.checkWritable, if_neg (by decide +kernel), if_neg (by decide +kernel)]
  have hrun : (empty.run rs).records = ⟨"records", [photo (.int32 5) 1]⟩ := by
    have hserve (s : Datastore) (now : Int64) (ids : List ObjectId) (path : FieldPath) (v : Value) :
        (s.run [.updateNested now ids path v]).records =
          (Record.updateNested s.records now ids path v).2 := rfl
    rw [show rs = [created] ++ [.updateNested 1 [id] (.ofString "title") (.int32 5)] from rfl,
      run_append, hserve, hcreated, Record.updateNested, hwritable]
    simp only [Record.writeEach, hwrite]
    rfl
  rw [hrun]
  refine ⟨rfl, rfl, .decode .mistyped, ?_, rfl⟩
  exact Record.model.get_of_some (c := ⟨"records", _⟩) (hfind (.int32 5) 1)

end Datastore

end DocumentStore
