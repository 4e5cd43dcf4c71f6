import DocumentStore.Proofs.Entity.Stored

/-! Entities are read back as they were written, with the filters and the collections that are in
them. -/

namespace DocumentStore

namespace Document

theorem get_append (a b : Document) (key : String) :
    get (a ++ b) key = (get a key).or (get b key) :=
  List.lookup_append

theorem isSome_get_iff {d : Document} {key : String} :
    (get d key).isSome = true ↔ key ∈ d.map Prod.fst := by
  induction d with
  | nil => simp
  | cons entry rest ih =>
    obtain ⟨k, v⟩ := entry
    rw [get_cons]
    by_cases hk : k = key
    · simp [hk]
    · simpa [hk, Ne.symm hk] using ih

theorem get_eq_none_of_notMem {d : Document} {key : String} (h : key ∉ d.map Prod.fst) :
    get d key = none :=
  Option.not_isSome_iff_eq_none.mp fun hsome => h (isSome_get_iff.mp hsome)

theorem get_presentField (key other : String) (v : Option Value) :
    get (presentField key v) other = if key = other then v else none := by
  cases v with
  | none => simp [presentField]
  | some v => simp [presentField, get_cons]

theorem get_insertAll {entries : Document} (h : (entries.map Prod.fst).Nodup) (d : Document)
    (key : String) : get (insertAll d entries) key = (get entries key).or (get d key) := by
  induction entries generalizing d with
  | nil => rfl
  | cons entry rest ih =>
    obtain ⟨k, v⟩ := entry
    obtain ⟨hk, hrest⟩ := List.nodup_cons.mp h
    refine (ih hrest (insert d k v)).trans ?_
    rw [get_cons]
    by_cases hkey : k = key
    · subst hkey
      rw [get_eq_none_of_notMem hk, get_insert_self, if_pos rfl]
      rfl
    · rw [get_insert_of_ne d v (Ne.symm hkey), if_neg hkey]

end Document

theorem presentField_keys (key : String) (v : Option Value) :
    ((presentField key v).map Prod.fst).Sublist [key] := by
  cases v with
  | none => exact List.nil_sublist [key]
  | some v => exact .refl [key]

namespace Members

variable {α ε : Type} {read : Value → Except ε α} {d : Document} {key : String} {v : Value}

theorem required_of_get (h : Document.get d key = some v) (missing : String → ε) :
    required read missing d key = read v := by
  have hlookup : List.lookup key d = some v := h
  rw [required, hlookup]

theorem optional_of_get (h : Document.get d key = some v) (default : α) :
    optional read default d key = read v := by
  have hlookup : List.lookup key d = some v := h
  rw [optional, hlookup]

theorem optional_of_none (h : Document.get d key = none) (default : α) :
    optional read default d key = .ok default := by
  have hlookup : List.lookup key d = none := h
  rw [optional, hlookup]

end Members

/-- An optional field that is written where it is present. -/
theorem Value.optionalField_of_present {α : Type} {read : Reader α} {d : Document} {key : String}
    {x : Option α} {write : α → Value} (h : Document.get d key = x.map write)
    (hread : ∀ a, x = some a → readOptional read (write a) = .ok (some a)) :
    optionalField read d key = .ok x := by
  cases x with
  | none => exact Members.optional_of_none h none
  | some a => exact (Members.optional_of_get h none).trans (hread a rfl)

theorem readItems_textsValue (texts : List String) :
    Value.readItems Value.readText (textsValue texts) = .ok texts := by
  rw [textsValue, Value.readItems, Traversal.mapM_eq_ok_iff, List.forall₂_map_left_iff,
    List.forall₂_same]
  exact fun _ _ => rfl

theorem Visibility.read_toValue (v : Visibility) : read v.toValue = .ok v := by
  cases v <;> rfl

namespace Model

variable {β δ : Type} (m : Model β δ)

/-- The keys of the fields that every entity has. -/
def entityKeys : List String :=
  [idKey, createdAtKey, updatedAtKey]

/-- No key is written twice into one entity. -/
def HasDistinctKeys : Prop :=
  ∀ body, (entityKeys ++ (m.writeBody body).map Prod.fst).Nodup

/-- Bodies are read back from every document that has their fields. -/
def Rereads (bodies : β → Prop) : Prop :=
  ∀ body, bodies body → ∀ d : Document,
    (∀ key ∉ entityKeys, Document.get d key = Document.get (m.writeBody body) key) →
      m.readBody d = .ok body

variable {m} in
theorem decode_eq_ok_iff {d : Document} {e : Entity β} : m.decode d = .ok e ↔
    Members.check m.checkEntity d = .ok () ∧
      Members.required Value.readId .missing d idKey = .ok e.id ∧ m.readBody d = .ok e.body ∧
      Members.required Value.readDate .missing d createdAtKey = .ok e.createdAt ∧
      Members.required Value.readDate .missing d updatedAtKey = .ok e.updatedAt := by
  constructor
  · intro he
    obtain ⟨_, hcheck, he⟩ := Traversal.bind_eq_ok_iff.mp he
    obtain ⟨id, hid, he⟩ := Traversal.bind_eq_ok_iff.mp he
    obtain ⟨body, hbody, he⟩ := Traversal.bind_eq_ok_iff.mp he
    obtain ⟨created, hcreated, he⟩ := Traversal.bind_eq_ok_iff.mp he
    obtain ⟨updated, hupdated, he⟩ := Traversal.bind_eq_ok_iff.mp he
    cases he
    exact ⟨hcheck, hid, hbody, hcreated, hupdated⟩
  · rintro ⟨hcheck, hid, hbody, hcreated, hupdated⟩
    rw [decode, hcheck, hid, hbody, hcreated, hupdated]
    rfl

variable {m} in
theorem Decodes.check {d : Document} (h : m.Decodes d) :
    Members.check m.checkEntity d = .ok () := by
  obtain ⟨e, he⟩ := h
  exact (decode_eq_ok_iff.mp he).1

theorem decode_of_reads {d : Document} (h : m.Decodes d) {id : ObjectId} {body : β}
    {created updated : Int64} (hid : Document.get d idKey = some (.objectId id))
    (hbody : m.readBody d = .ok body)
    (hcreated : Document.get d createdAtKey = some (.dateTime created))
    (hupdated : Document.get d updatedAtKey = some (.dateTime updated)) :
    m.decode d = .ok ⟨id, body, created, updated⟩ :=
  decode_eq_ok_iff.mpr ⟨h.check, Members.required_of_get hid _, hbody,
    Members.required_of_get hcreated _, Members.required_of_get hupdated _⟩

theorem id_of_decode {d : Document} {e : Entity β} {id : ObjectId} (he : m.decode d = .ok e)
    (hid : d.id? = .ok id) : e.id = id := by
  obtain ⟨-, hread, -⟩ := decode_eq_ok_iff.mp he
  rw [Members.required_of_get (Document.id?_eq_ok_iff.mp hid)] at hread
  exact (Except.ok.inj hread).symm

section Written

variable {m} {σ : Schema} {bodies : β → Prop} {changes : δ → Prop}

theorem Keeps.holds_encode (hk : m.Keeps σ bodies changes) {e : Entity β} (he : bodies e.body) :
    σ.Holds (m.encode e) where
  accepted := by
    simp only [encode, List.forall_mem_append, List.forall_mem_cons, List.not_mem_nil,
      false_imp_iff, implies_true, and_true]
    exact ⟨⟨hk.id e.id, hk.body e.body he⟩, hk.createdAt e.createdAt, hk.updatedAt e.updatedAt⟩
  present := by
    intro key hkey
    have hwritten := hk.required e.body key hkey
    rw [Document.isSome_get_iff]
    simpa [encode] using hwritten

theorem HasDistinctKeys.get_body (h : m.HasDistinctKeys) (body : β) {key : String}
    (hkey : key ∈ entityKeys) : Document.get (m.writeBody body) key = none := by
  obtain ⟨-, -, hdisjoint⟩ := List.nodup_append.mp (h body)
  exact Document.get_eq_none_of_notMem fun hmem => hdisjoint key hkey key hmem rfl

/-- An entity that is written is read back as itself. -/
theorem Keeps.decode_encode (hk : m.Keeps σ bodies changes) (hkeys : m.HasDistinctKeys)
    (hm : m.Rereads bodies) {e : Entity β} (he : bodies e.body) :
    m.decode (m.encode e) = .ok e := by
  have hcreated : Document.get (m.writeBody e.body) createdAtKey = none :=
    hkeys.get_body e.body (by simp [entityKeys])
  have hupdated : Document.get (m.writeBody e.body) updatedAtKey = none :=
    hkeys.get_body e.body (by simp [entityKeys])
  refine m.decode_of_reads (hk.decodes _ (hk.holds_encode he)) ?_ (hm e.body he _ ?_) ?_ ?_
  · simp [encode, Document.get_cons]
  · intro key hkey
    simp only [entityKeys, List.mem_cons, List.not_mem_nil, or_false, not_or] at hkey
    obtain ⟨hid, hc, hu⟩ := hkey
    simp [encode, Document.get_append, Document.get_cons, Ne.symm hid, Ne.symm hc, Ne.symm hu]
  · have hne : idKey ≠ createdAtKey := by decide
    simp [encode, Document.get_append, Document.get_cons, hcreated, hne]
  · have hne : idKey ≠ updatedAtKey := by decide
    have hne' : createdAtKey ≠ updatedAtKey := by decide
    simp [encode, Document.get_append, Document.get_cons, hupdated, hne, hne']

end Written

end Model

theorem JourneyCollection.read_toDocument {c : JourneyCollection} (h : c.filters.Valid) :
    read (.document c.toDocument) = .ok c := by
  obtain ⟨c', hread⟩ := reads_toDocument h
  rw [hread]
  obtain ⟨_, -, hread⟩ := Traversal.bind_eq_ok_iff.mp hread
  have hget : Document.get c.toDocument "title" = some (.string c.title) := rfl
  have htitle : Members.required Value.readText DecodeFault.missing c.toDocument "title" =
      .ok c.title := Members.required_of_get hget _
  have hfilters : FilterSet.ofDocument c.toDocument = .ok c.filters :=
    (Members.optional_of_get rfl _).trans (FilterSet.read_toValue h)
  rw [htitle, hfilters] at hread
  exact hread.symm

theorem JourneyCollection.readItems_listValue {collections : List JourneyCollection}
    (h : ∀ c ∈ collections, c.filters.Valid) :
    Value.readItems read (listValue collections) = .ok collections := by
  rw [listValue, Value.readItems, Traversal.mapM_eq_ok_iff, List.forall₂_map_left_iff,
    List.forall₂_same]
  exact fun c hc => read_toDocument (h c hc)

namespace Journey

theorem hasDistinctKeys : model.HasDistinctKeys := by
  intro j
  have hkeys : ((model.writeBody j).map Prod.fst).Sublist ["title", "description", "tags", "author",
      "parentID", "collections", "visibility", "excludedIDs"] := by
    simp only [model, JourneyBody.toDocument, List.map_append]
    exact ((((List.Sublist.refl ["title"]).append (presentField_keys _ _)).append
      (List.Sublist.refl ["tags", "author"])).append (presentField_keys _ _)).append
        (List.Sublist.refl ["collections", "visibility", "excludedIDs"])
  exact List.Nodup.sublist ((List.Sublist.refl _).append hkeys) (by decide)

theorem fields_of_body {j : JourneyBody} {d : Document}
    (h : ∀ key ∉ Model.entityKeys, Document.get d key = Document.get (model.writeBody j) key) :
    Document.get d "title" = some (.string j.title) ∧
      Document.get d "description" = j.description.map .string ∧
      Document.get d "tags" = some (textsValue j.tags) ∧
      Document.get d "author" = some (.string j.author) ∧
      Document.get d "parentID" = j.parent.map .objectId ∧
      Document.get d "collections" = some (JourneyCollection.listValue j.collections) ∧
      Document.get d "visibility" = some j.visibility.toValue ∧
      Document.get d "excludedIDs" = some (textsValue j.excludedIds) := by
  rw [h "title" (by decide), h "description" (by decide), h "tags" (by decide),
    h "author" (by decide), h "parentID" (by decide), h "collections" (by decide),
    h "visibility" (by decide), h "excludedIDs" (by decide)]
  simp [model, JourneyBody.toDocument, Document.get_append, Document.get_presentField,
    Document.get_cons]

theorem rereads : model.Rereads JourneyBody.IsReadable := by
  intro j hj d hd
  obtain ⟨htitle, hdescription, htags, hauthor, hparent, hcollections, hvisibility, hexcluded⟩ :=
    fields_of_body hd
  change JourneyBody.read Visibility.stated d = _
  rw [JourneyBody.read, Members.required_of_get htitle,
    Value.optionalField_of_present hdescription (fun _ _ => rfl), Members.optional_of_get htags,
    readItems_textsValue, Members.required_of_get hauthor,
    Value.optionalField_of_present hparent (fun _ _ => rfl), Members.optional_of_get hcollections,
    JourneyCollection.readItems_listValue hj, Visibility.stated,
    Members.required_of_get hvisibility, Visibility.read_toValue,
    Members.optional_of_get hexcluded, readItems_textsValue]
  rfl

end Journey

namespace Trace

theorem hasDistinctKeys : model.HasDistinctKeys := by
  intro t
  have hkeys : ((model.writeBody t).map Prod.fst).Sublist ["title", "description", "tags", "author",
      "parent", "visibility", "filterSet"] := by
    simp only [model, TraceBody.toDocument, List.map_append]
    exact ((((List.Sublist.refl ["title"]).append (presentField_keys _ _)).append
      (List.Sublist.refl ["tags", "author"])).append (presentField_keys _ _)).append
        (List.Sublist.refl ["visibility", "filterSet"])
  exact List.Nodup.sublist ((List.Sublist.refl _).append hkeys) (by decide)

theorem fields_of_body {t : TraceBody} {d : Document}
    (h : ∀ key ∉ Model.entityKeys, Document.get d key = Document.get (model.writeBody t) key) :
    Document.get d "title" = some (.string t.title) ∧
      Document.get d "description" = t.description.map .string ∧
      Document.get d "tags" = some (textsValue t.tags) ∧
      Document.get d "author" = some (.string t.author) ∧
      Document.get d "parent" = t.parent.map .objectId ∧
      Document.get d "visibility" = some t.visibility.toValue ∧
      Document.get d "filterSet" = some t.filters.toValue := by
  rw [h "title" (by decide), h "description" (by decide), h "tags" (by decide),
    h "author" (by decide), h "parent" (by decide), h "visibility" (by decide),
    h "filterSet" (by decide)]
  simp [model, TraceBody.toDocument, Document.get_append, Document.get_presentField,
    Document.get_cons]

theorem rereads : model.Rereads TraceBody.IsReadable := by
  intro t ht d hd
  obtain ⟨htitle, hdescription, htags, hauthor, hparent, hvisibility, hfilters⟩ :=
    fields_of_body hd
  change TraceBody.read Visibility.stated d = _
  rw [TraceBody.read, Members.required_of_get htitle,
    Value.optionalField_of_present hdescription (fun _ _ => rfl), Members.optional_of_get htags,
    readItems_textsValue, Members.required_of_get hauthor,
    Value.optionalField_of_present hparent (fun _ _ => rfl), Visibility.stated,
    Members.required_of_get hvisibility, Visibility.read_toValue, FilterSet.ofDocument,
    Members.optional_of_get hfilters, FilterSet.read_toValue ht]
  rfl

end Trace

end DocumentStore
