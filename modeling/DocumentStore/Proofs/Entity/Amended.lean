import DocumentStore.Proofs.Entity.Plain
import DocumentStore.Service.Basic

/-! Entities after a change. Each field that a change has takes its value, each other field is kept,
and so are the identifier and the time of creation. -/

namespace DocumentStore

/-- An entity after a change, where `amend` is what becomes of its body. -/
def Entity.amended {β δ : Type} (amend : β → δ → β) (e : Entity β) (now : Int64) (q : δ) :
    Entity β :=
  { e with body := amend e.body q, updatedAt := now }

def RecordBody.amended (b : RecordBody) (q : RecordChange) : RecordBody where
  title := q.title.getD b.title
  description := q.description.or b.description
  dataType := q.dataType.getD b.dataType
  dataSet := q.dataSet.or b.dataSet
  tags := q.tags.getD b.tags
  content := q.content.getD b.content

def JourneyBody.amended (b : JourneyBody) (q : JourneyChange) : JourneyBody where
  title := q.title.getD b.title
  description := q.description.or b.description
  tags := q.tags.getD b.tags
  author := q.author.getD b.author
  parent := q.parent.or b.parent
  collections := q.collections.getD b.collections
  visibility := q.visibility.getD b.visibility
  excludedIds := q.excludedIds.getD b.excludedIds

def TraceBody.amended (b : TraceBody) (q : TraceChange) : TraceBody where
  title := q.title.getD b.title
  description := q.description.or b.description
  tags := q.tags.getD b.tags
  author := q.author.getD b.author
  parent := q.parent.or b.parent
  visibility := q.visibility.getD b.visibility
  filters := q.filters.getD b.filters

section Field

variable {α : Type} {read : Value.Reader α} {d d' : Document} {key : String} {x : Option α}
  {write : α → Value} (h : Document.get d' key = (x.map write).or (Document.get d key))

include h

theorem Members.required_amended (hread : ∀ a, x = some a → read (write a) = .ok a)
    {missing : String → DecodeFault} {b : α} (hb : required read missing d key = .ok b) :
    required read missing d' key = .ok (x.getD b) := by
  cases x with
  | none => exact (required_congr h).trans hb
  | some a => exact (required_of_get h missing).trans (hread a rfl)

theorem Members.optional_amended (hread : ∀ a, x = some a → read (write a) = .ok a)
    {default b : α} (hb : optional read default d key = .ok b) :
    optional read default d' key = .ok (x.getD b) := by
  cases x with
  | none => exact (optional_congr h).trans hb
  | some a => exact (optional_of_get h default).trans (hread a rfl)

theorem Value.optionalField_amended
    (hread : ∀ a, x = some a → readOptional read (write a) = .ok (some a)) {b : Option α}
    (hb : optionalField read d key = .ok b) : optionalField read d' key = .ok (x.or b) := by
  cases x with
  | none => exact (Members.optional_congr h).trans hb
  | some a => exact (Members.optional_of_get h none).trans (hread a rfl)

end Field

namespace Model

variable {β δ : Type} {m : Model β δ}

/-- A document after a change. -/
def changed (m : Model β δ) (now : Int64) (q : δ) (d : Document) : Document :=
  Document.insert (Document.insertAll d (m.writeChange q)) updatedAtKey (.dateTime now)

/-- What is written for a change are fields, each written once, and none that every entity has. -/
structure WritesFields (m : Model β δ) : Prop where
  nodup : ∀ q, ((m.writeChange q).map Prod.fst).Nodup
  split : ∀ q, ∀ key ∈ (m.writeChange q).map Prod.fst, FieldPath.split key = [key]
  spare : ∀ q, ∀ key ∈ (m.writeChange q).map Prod.fst, key ∉ entityKeys

namespace WritesFields

theorem of_sublist {keys : List String}
    (h : ∀ q, ((m.writeChange q).map Prod.fst).Sublist keys) (hnodup : keys.Nodup)
    (hsplit : ∀ key ∈ keys, FieldPath.split key = [key])
    (hspare : ∀ key ∈ keys, key ∉ entityKeys) : m.WritesFields where
  nodup := fun q => (h q).nodup hnodup
  split := fun q key hkey => hsplit key ((h q).subset hkey)
  spare := fun q key hkey => hspare key ((h q).subset hkey)

variable (hm : m.WritesFields) (q : δ)

include hm

theorem get_writeChange {key : String} (hkey : key ∈ entityKeys) :
    Document.get (m.writeChange q) key = none :=
  Document.get_eq_none_of_notMem fun h => hm.spare q key h hkey

theorem update_changeUpdate (now : Int64) (d : Document) :
    Document.update d (m.changeUpdate now q) = .ok (m.changed now q d) := by
  have hfields : ∀ entry ∈ m.writeChange q ++ [(updatedAtKey, .dateTime now)],
      FieldPath.split entry.1 = [entry.1] ∧ entry.1 ≠ idKey := by
    intro entry hentry
    rcases List.mem_append.mp hentry with hentry | hentry
    · have hkey := List.mem_map_of_mem (f := Prod.fst) hentry
      exact ⟨hm.split q _ hkey, fun hid => hm.spare q _ hkey (by simp [hid, entityKeys])⟩
    · obtain rfl := List.mem_singleton.mp hentry
      exact ⟨split_updatedAtKey, show updatedAtKey ≠ idKey by decide⟩
  rw [changeUpdate,
    Document.insert_of_get_none (hm.get_writeChange q (by simp [entityKeys]))]
  change ((m.writeChange q ++ [(updatedAtKey, Value.dateTime now)]).foldlM
    Document.setField d >>= pure) = _
  rw [Document.foldlM_setField_of_split hfields, Document.insertAll, List.foldl_append]
  rfl

theorem get_changed (now : Int64) (d : Document) {key : String} (hkey : key ≠ updatedAtKey) :
    Document.get (m.changed now q d) key =
      (Document.get (m.writeChange q) key).or (Document.get d key) := by
  rw [changed, Document.get_insert_of_ne _ _ hkey, Document.get_insertAll (hm.nodup q)]

theorem get_changed_of_mem (now : Int64) (d : Document) {key : String} (hkey : key ∈ entityKeys)
    (hdate : key ≠ updatedAtKey) : Document.get (m.changed now q d) key = Document.get d key := by
  rw [hm.get_changed q now d hdate, hm.get_writeChange q hkey]
  rfl

end WritesFields

/-- Bodies are read after a change from every document that has its fields written over those of the
body. -/
def Amends (m : Model β δ) (changes : δ → Prop) (amend : β → δ → β) : Prop :=
  ∀ q, changes q → ∀ (d d' : Document) (b : β),
    (∀ key ∉ entityKeys,
      Document.get d' key = (Document.get (m.writeChange q) key).or (Document.get d key)) →
    m.readBody d = .ok b → m.readBody d' = .ok (amend b q)

/-- The bodies that may be written are read back, before and after the changes that may be. -/
structure Faithful (m : Model β δ) (σ : Schema) (bodies : β → Prop) (changes : δ → Prop)
    (amend : β → δ → β) : Prop where
  keeps : m.Keeps σ bodies changes
  holds : ∀ d, m.Decodes d → σ.Holds d
  distinct : m.HasDistinctKeys
  rereads : m.Rereads bodies
  writes : m.WritesFields
  amends : m.Amends changes amend

theorem Faithful.decode_changed {σ : Schema} {bodies : β → Prop} {changes : δ → Prop}
    {amend : β → δ → β} (hm : m.Faithful σ bodies changes amend) {q : δ} (hq : changes q)
    (now : Int64) {d : Document} {e : Entity β} (he : m.decode d = .ok e) :
    m.decode (m.changed now q d) = .ok (e.amended amend now q) := by
  have hholds : σ.Holds (m.changed now q d) := ((hm.holds d ⟨e, he⟩).insertAll
    fun entry hentry => (hm.keeps.change q hq entry hentry).2).insert (hm.keeps.updatedAt now)
  obtain ⟨-, hid, hbody, hcreated, -⟩ := decode_eq_ok_iff.mp he
  refine decode_eq_ok_iff.mpr ⟨(hm.keeps.decodes _ hholds).check, ?_, ?_, ?_, ?_⟩
  · exact (Members.required_congr (hm.writes.get_changed_of_mem q now d (by simp [entityKeys])
      (by decide))).trans hid
  · refine hm.amends q hq d _ e.body (fun key hkey => ?_) hbody
    exact hm.writes.get_changed q now d fun hdate => hkey (by simp [hdate, entityKeys])
  · exact (Members.required_congr (hm.writes.get_changed_of_mem q now d (by simp [entityKeys])
      (by decide))).trans hcreated
  · exact Members.required_of_get (Document.get_insert_self _ _ _) _

end Model

namespace Record

theorem writesFields : model.WritesFields := by
  have hkeys : ∀ q, ((model.writeChange q).map Prod.fst).Sublist
      ["title", "description", "dataType", "dataSet", "tags", "content"] := by
    intro q
    simp only [model, RecordChange.toDocument, List.map_append]
    exact ((((presentField_keys _ _).append (presentField_keys _ _)).append
      (presentField_keys _ _)).append (presentField_keys _ _)).append
        (presentField_keys _ _) |>.append (presentField_keys _ _)
  exact .of_sublist hkeys (by decide) (by decide +kernel) (by decide)

theorem fields_of_change {q : RecordChange} {d d' : Document}
    (h : ∀ key ∉ Model.entityKeys, Document.get d' key =
      (Document.get (model.writeChange q) key).or (Document.get d key)) :
    Document.get d' "title" = (q.title.map .string).or (Document.get d "title") ∧
      Document.get d' "description" =
        (q.description.map .string).or (Document.get d "description") ∧
      Document.get d' "dataType" =
        (q.dataType.map DataType.toValue).or (Document.get d "dataType") ∧
      Document.get d' "dataSet" = (q.dataSet.map .string).or (Document.get d "dataSet") ∧
      Document.get d' "tags" = (q.tags.map textsValue).or (Document.get d "tags") ∧
      Document.get d' "content" =
        (q.content.map (fun c => .document c.toDocument)).or (Document.get d "content") := by
  rw [h "title" (by decide), h "description" (by decide), h "dataType" (by decide),
    h "dataSet" (by decide), h "tags" (by decide), h "content" (by decide)]
  simp [model, RecordChange.toDocument, Document.get_append, Document.get_presentField]

theorem readBody_eq_ok_iff {d : Document} {r : RecordBody} : model.readBody d = .ok r ↔
    Members.required Value.readText .missing d "title" = .ok r.title ∧
      Value.optionalField Value.readText d "description" = .ok r.description ∧
      Members.required DataType.read .missing d "dataType" = .ok r.dataType ∧
      Value.optionalField Value.readText d "dataSet" = .ok r.dataSet ∧
      Members.optional (Value.readItems Value.readText) [] d "tags" = .ok r.tags ∧
      Members.required Content.read .missing d "content" = .ok r.content := by
  change RecordBody.read d = _ ↔ _
  constructor
  · intro h
    obtain ⟨title, htitle, h⟩ := Traversal.bind_eq_ok_iff.mp h
    obtain ⟨description, hdescription, h⟩ := Traversal.bind_eq_ok_iff.mp h
    obtain ⟨dataType, hdataType, h⟩ := Traversal.bind_eq_ok_iff.mp h
    obtain ⟨dataSet, hdataSet, h⟩ := Traversal.bind_eq_ok_iff.mp h
    obtain ⟨tags, htags, h⟩ := Traversal.bind_eq_ok_iff.mp h
    obtain ⟨content, hcontent, h⟩ := Traversal.bind_eq_ok_iff.mp h
    cases h
    exact ⟨htitle, hdescription, hdataType, hdataSet, htags, hcontent⟩
  · rintro ⟨htitle, hdescription, hdataType, hdataSet, htags, hcontent⟩
    rw [RecordBody.read, htitle, hdescription, hdataType, hdataSet, htags, hcontent]
    rfl

theorem amends : model.Amends RecordChange.IsPlain RecordBody.amended := by
  intro q hq d d' r hget hr
  obtain ⟨htitle, hdescription, hdataType, hdataSet, htags, hcontent⟩ := fields_of_change hget
  obtain ⟨rtitle, rdescription, rdataType, rdataSet, rtags, rcontent⟩ := readBody_eq_ok_iff.mp hr
  refine readBody_eq_ok_iff.mpr ⟨?title, ?description, ?dataType, ?dataSet, ?tags, ?content⟩
  case title => exact Members.required_amended htitle (fun _ _ => rfl) rtitle
  case description => exact Value.optionalField_amended hdescription (fun _ _ => rfl) rdescription
  case dataType => exact Members.required_amended hdataType (fun t _ => t.read_toValue) rdataType
  case dataSet => exact Value.optionalField_amended hdataSet (fun _ _ => rfl) rdataSet
  case tags => exact Members.optional_amended htags (fun tags _ => readItems_textsValue tags) rtags
  case content =>
    exact Members.required_amended hcontent
      (fun content h => Content.read_toDocument (hq content h)) rcontent

theorem faithful :
    model.Faithful schema RecordBody.IsPlain RecordChange.IsPlain RecordBody.amended where
  keeps := keeps.weaken (fun _ _ h => h.1) rfl (fun d h => (decodes_iff d).mpr h)
    (fun _ h => Content.IsPlain.isReadable h)
    fun _ h content hcontent => (h content hcontent).isReadable
  holds := fun d h => (decodes_iff d).mp h
  distinct := hasDistinctKeys
  rereads := rereads
  writes := writesFields
  amends := amends

end Record

namespace Journey

theorem writesFields : model.WritesFields := by
  have hkeys : ∀ q, ((model.writeChange q).map Prod.fst).Sublist
      ["title", "description", "tags", "author", "parentID", "collections", "visibility",
        "excludedIDs"] := by
    intro q
    simp only [model, JourneyChange.toDocument, List.map_append]
    exact ((((((presentField_keys _ _).append (presentField_keys _ _)).append
      (presentField_keys _ _)).append (presentField_keys _ _)).append
        (presentField_keys _ _)).append (presentField_keys _ _)).append
          (presentField_keys _ _) |>.append (presentField_keys _ _)
  exact .of_sublist hkeys (by decide) (by decide +kernel) (by decide)

theorem fields_of_change {q : JourneyChange} {d d' : Document}
    (h : ∀ key ∉ Model.entityKeys, Document.get d' key =
      (Document.get (model.writeChange q) key).or (Document.get d key)) :
    Document.get d' "title" = (q.title.map .string).or (Document.get d "title") ∧
      Document.get d' "description" =
        (q.description.map .string).or (Document.get d "description") ∧
      Document.get d' "tags" = (q.tags.map textsValue).or (Document.get d "tags") ∧
      Document.get d' "author" = (q.author.map .string).or (Document.get d "author") ∧
      Document.get d' "parentID" = (q.parent.map .objectId).or (Document.get d "parentID") ∧
      Document.get d' "collections" =
        (q.collections.map JourneyCollection.listValue).or (Document.get d "collections") ∧
      Document.get d' "visibility" =
        (q.visibility.map Visibility.toValue).or (Document.get d "visibility") ∧
      Document.get d' "excludedIDs" =
        (q.excludedIds.map textsValue).or (Document.get d "excludedIDs") := by
  rw [h "title" (by decide), h "description" (by decide), h "tags" (by decide),
    h "author" (by decide), h "parentID" (by decide), h "collections" (by decide),
    h "visibility" (by decide), h "excludedIDs" (by decide)]
  simp [model, JourneyChange.toDocument, Document.get_append, Document.get_presentField]

theorem readBody_eq_ok_iff {d : Document} {j : JourneyBody} : model.readBody d = .ok j ↔
    Members.required Value.readText .missing d "title" = .ok j.title ∧
      Value.optionalField Value.readText d "description" = .ok j.description ∧
      Members.optional (Value.readItems Value.readText) [] d "tags" = .ok j.tags ∧
      Members.required Value.readText .missing d "author" = .ok j.author ∧
      Value.optionalField Value.readId d "parentID" = .ok j.parent ∧
      Members.optional (Value.readItems JourneyCollection.read) [] d "collections" =
        .ok j.collections ∧
      Members.required Visibility.read .missing d "visibility" = .ok j.visibility ∧
      Members.optional (Value.readItems Value.readText) [] d "excludedIDs" = .ok j.excludedIds := by
  change JourneyBody.read Visibility.stated d = _ ↔ _
  constructor
  · intro h
    obtain ⟨title, htitle, h⟩ := Traversal.bind_eq_ok_iff.mp h
    obtain ⟨description, hdescription, h⟩ := Traversal.bind_eq_ok_iff.mp h
    obtain ⟨tags, htags, h⟩ := Traversal.bind_eq_ok_iff.mp h
    obtain ⟨author, hauthor, h⟩ := Traversal.bind_eq_ok_iff.mp h
    obtain ⟨parent, hparent, h⟩ := Traversal.bind_eq_ok_iff.mp h
    obtain ⟨collections, hcollections, h⟩ := Traversal.bind_eq_ok_iff.mp h
    obtain ⟨visibility, hvisibility, h⟩ := Traversal.bind_eq_ok_iff.mp h
    obtain ⟨excluded, hexcluded, h⟩ := Traversal.bind_eq_ok_iff.mp h
    cases h
    exact ⟨htitle, hdescription, htags, hauthor, hparent, hcollections, hvisibility, hexcluded⟩
  · rintro ⟨htitle, hdescription, htags, hauthor, hparent, hcollections, hvisibility, hexcluded⟩
    rw [JourneyBody.read, htitle, hdescription, htags, hauthor, hparent, hcollections,
      Visibility.stated, hvisibility, hexcluded]
    rfl

theorem amends : model.Amends JourneyChange.IsReadable JourneyBody.amended := by
  intro q hq d d' j hget hj
  obtain ⟨htitle, hdescription, htags, hauthor, hparent, hcollections, hvisibility, hexcluded⟩ :=
    fields_of_change hget
  obtain ⟨jtitle, jdescription, jtags, jauthor, jparent, jcollections, jvisibility, jexcluded⟩ :=
    readBody_eq_ok_iff.mp hj
  refine readBody_eq_ok_iff.mpr ⟨?title, ?description, ?tags, ?author, ?parent, ?collections,
    ?visibility, ?excluded⟩
  case title => exact Members.required_amended htitle (fun _ _ => rfl) jtitle
  case description => exact Value.optionalField_amended hdescription (fun _ _ => rfl) jdescription
  case tags => exact Members.optional_amended htags (fun tags _ => readItems_textsValue tags) jtags
  case author => exact Members.required_amended hauthor (fun _ _ => rfl) jauthor
  case parent => exact Value.optionalField_amended hparent (fun _ _ => rfl) jparent
  case collections =>
    exact Members.optional_amended hcollections
      (fun collections h => JourneyCollection.readItems_listValue (hq collections h)) jcollections
  case visibility =>
    exact Members.required_amended hvisibility (fun v _ => v.read_toValue) jvisibility
  case excluded =>
    exact Members.optional_amended hexcluded (fun ids _ => readItems_textsValue ids) jexcluded

theorem faithful :
    model.Faithful schema JourneyBody.IsReadable JourneyChange.IsReadable JourneyBody.amended where
  keeps := keeps
  holds := fun d h => (decodes_iff d).mp h
  distinct := hasDistinctKeys
  rereads := rereads
  writes := writesFields
  amends := amends

end Journey

namespace Trace

theorem writesFields : model.WritesFields := by
  have hkeys : ∀ q, ((model.writeChange q).map Prod.fst).Sublist
      ["title", "description", "tags", "author", "parent", "visibility", "filterSet"] := by
    intro q
    simp only [model, TraceChange.toDocument, List.map_append]
    exact (((((presentField_keys _ _).append (presentField_keys _ _)).append
      (presentField_keys _ _)).append (presentField_keys _ _)).append
        (presentField_keys _ _)).append (presentField_keys _ _) |>.append (presentField_keys _ _)
  exact .of_sublist hkeys (by decide) (by decide +kernel) (by decide)

theorem fields_of_change {q : TraceChange} {d d' : Document}
    (h : ∀ key ∉ Model.entityKeys, Document.get d' key =
      (Document.get (model.writeChange q) key).or (Document.get d key)) :
    Document.get d' "title" = (q.title.map .string).or (Document.get d "title") ∧
      Document.get d' "description" =
        (q.description.map .string).or (Document.get d "description") ∧
      Document.get d' "tags" = (q.tags.map textsValue).or (Document.get d "tags") ∧
      Document.get d' "author" = (q.author.map .string).or (Document.get d "author") ∧
      Document.get d' "parent" = (q.parent.map .objectId).or (Document.get d "parent") ∧
      Document.get d' "visibility" =
        (q.visibility.map Visibility.toValue).or (Document.get d "visibility") ∧
      Document.get d' "filterSet" =
        (q.filters.map FilterSet.toValue).or (Document.get d "filterSet") := by
  rw [h "title" (by decide), h "description" (by decide), h "tags" (by decide),
    h "author" (by decide), h "parent" (by decide), h "visibility" (by decide),
    h "filterSet" (by decide)]
  simp [model, TraceChange.toDocument, Document.get_append, Document.get_presentField]

theorem readBody_eq_ok_iff {d : Document} {t : TraceBody} : model.readBody d = .ok t ↔
    Members.required Value.readText .missing d "title" = .ok t.title ∧
      Value.optionalField Value.readText d "description" = .ok t.description ∧
      Members.optional (Value.readItems Value.readText) [] d "tags" = .ok t.tags ∧
      Members.required Value.readText .missing d "author" = .ok t.author ∧
      Value.optionalField Value.readId d "parent" = .ok t.parent ∧
      Members.required Visibility.read .missing d "visibility" = .ok t.visibility ∧
      Members.optional FilterSet.read .empty d "filterSet" = .ok t.filters := by
  change TraceBody.read Visibility.stated d = _ ↔ _
  constructor
  · intro h
    obtain ⟨title, htitle, h⟩ := Traversal.bind_eq_ok_iff.mp h
    obtain ⟨description, hdescription, h⟩ := Traversal.bind_eq_ok_iff.mp h
    obtain ⟨tags, htags, h⟩ := Traversal.bind_eq_ok_iff.mp h
    obtain ⟨author, hauthor, h⟩ := Traversal.bind_eq_ok_iff.mp h
    obtain ⟨parent, hparent, h⟩ := Traversal.bind_eq_ok_iff.mp h
    obtain ⟨visibility, hvisibility, h⟩ := Traversal.bind_eq_ok_iff.mp h
    obtain ⟨filters, hfilters, h⟩ := Traversal.bind_eq_ok_iff.mp h
    cases h
    exact ⟨htitle, hdescription, htags, hauthor, hparent, hvisibility, hfilters⟩
  · rintro ⟨htitle, hdescription, htags, hauthor, hparent, hvisibility, hfilters⟩
    rw [TraceBody.read, htitle, hdescription, htags, hauthor, hparent, Visibility.stated,
      hvisibility, FilterSet.ofDocument, hfilters]
    rfl

theorem amends : model.Amends TraceChange.IsReadable TraceBody.amended := by
  intro q hq d d' t hget ht
  obtain ⟨htitle, hdescription, htags, hauthor, hparent, hvisibility, hfilters⟩ :=
    fields_of_change hget
  obtain ⟨ttitle, tdescription, ttags, tauthor, tparent, tvisibility, tfilters⟩ :=
    readBody_eq_ok_iff.mp ht
  refine readBody_eq_ok_iff.mpr ⟨?title, ?description, ?tags, ?author, ?parent, ?visibility,
    ?filters⟩
  case title => exact Members.required_amended htitle (fun _ _ => rfl) ttitle
  case description => exact Value.optionalField_amended hdescription (fun _ _ => rfl) tdescription
  case tags => exact Members.optional_amended htags (fun tags _ => readItems_textsValue tags) ttags
  case author => exact Members.required_amended hauthor (fun _ _ => rfl) tauthor
  case parent => exact Value.optionalField_amended hparent (fun _ _ => rfl) tparent
  case visibility =>
    exact Members.required_amended hvisibility (fun v _ => v.read_toValue) tvisibility
  case filters =>
    exact Members.optional_amended hfilters (fun s h => FilterSet.read_toValue (hq s h)) tfilters

theorem faithful :
    model.Faithful schema TraceBody.IsReadable TraceChange.IsReadable TraceBody.amended where
  keeps := keeps
  holds := fun d h => (decodes_iff d).mp h
  distinct := hasDistinctKeys
  rereads := rereads
  writes := writesFields
  amends := amends

end Trace

end DocumentStore
