import DocumentStore.Entity.Journey
import DocumentStore.Entity.Record
import DocumentStore.Entity.Trace
import DocumentStore.Proofs.Entity.Content
import DocumentStore.Proofs.Entity.Update
import DocumentStore.Proofs.Filter.Stored

/-! Records, journeys and traces as they are stored. Each kind of entity is read from the documents
of its schema, and what is written for one is accepted by it as long as its data have no tags and
its filters are valid. -/

namespace DocumentStore

theorem forall_mem_presentField {α : Type} {p : String × Value → Prop} {key : String}
    {x : Option α} {write : α → Value} :
    (∀ entry ∈ presentField key (x.map write), p entry) ↔ ∀ a, x = some a → p (key, write a) := by
  cases x <;> simp [presentField]

/-- The documents of a schema are read by a model, and it accepts what the model writes for the
bodies and the changes that may be written. -/
structure Model.Keeps {β δ : Type} (m : Model β δ) (σ : Schema) (bodies : β → Prop)
    (changes : δ → Prop) : Prop where
  decodes : ∀ d, σ.Holds d → m.Decodes d
  id : ∀ id, σ.accepts idKey (.objectId id)
  createdAt : ∀ t, σ.accepts createdAtKey (.dateTime t)
  updatedAt : ∀ t, σ.accepts updatedAtKey (.dateTime t)
  body : ∀ b, bodies b → ∀ entry ∈ m.writeBody b, σ.accepts entry.1 entry.2
  required : ∀ b, ∀ key ∈ σ.required,
    key ∈ idKey :: ((m.writeBody b).map Prod.fst ++ [createdAtKey, updatedAtKey])
  change : ∀ c, changes c → ∀ entry ∈ m.writeChange c, σ.Sets entry.1 entry.2

theorem Model.Keeps.sets_updatedAt {β δ : Type} {m : Model β δ} {σ : Schema} {bodies : β → Prop}
    {changes : δ → Prop} (hk : m.Keeps σ bodies changes) (now : Int64) :
    σ.Sets updatedAtKey (.dateTime now) :=
  ⟨split_updatedAtKey, hk.updatedAt now⟩

/-- A schema that accepts more, with the documents that it has, for fewer bodies and changes. -/
theorem Model.Keeps.weaken {β δ : Type} {m : Model β δ} {σ σ' : Schema} {bodies bodies' : β → Prop}
    {changes changes' : δ → Prop} (hk : m.Keeps σ bodies changes)
    (haccepts : ∀ key v, σ.accepts key v → σ'.accepts key v) (hrequired : σ'.required = σ.required)
    (hdecodes : ∀ d, σ'.Holds d → m.Decodes d) (hbodies : ∀ b, bodies' b → bodies b)
    (hchanges : ∀ c, changes' c → changes c) : m.Keeps σ' bodies' changes' where
  decodes := hdecodes
  id := fun id => haccepts _ _ (hk.id id)
  createdAt := fun t => haccepts _ _ (hk.createdAt t)
  updatedAt := fun t => haccepts _ _ (hk.updatedAt t)
  body := fun b hb entry he => haccepts _ _ (hk.body b (hbodies b hb) entry he)
  required := fun b key hkey => hk.required b key (hrequired ▸ hkey)
  change := fun c hc entry he => (hk.change c (hchanges c hc) entry he).imp_right (haccepts _ _)

def RecordBody.IsReadable (b : RecordBody) : Prop :=
  b.content.IsReadable

def RecordChange.IsReadable (c : RecordChange) : Prop :=
  ∀ content, c.content = some content → content.IsReadable

def JourneyBody.IsReadable (b : JourneyBody) : Prop :=
  ∀ c ∈ b.collections, c.filters.Valid

def JourneyChange.IsReadable (c : JourneyChange) : Prop :=
  ∀ collections, c.collections = some collections → ∀ c ∈ collections, c.filters.Valid

def TraceBody.IsReadable (b : TraceBody) : Prop :=
  b.filters.Valid

def TraceChange.IsReadable (c : TraceChange) : Prop :=
  ∀ s, c.filters = some s → s.Valid

namespace Members

theorem readable_texts (texts : List String) :
    readable (Value.readItems Value.readText) (textsValue texts) = .ok () :=
  readable_eq_ok_iff.mpr (reads_mapM_iff.mpr (by simp [Value.readText, Reads]))

theorem readable_dataType (t : DataType) : readable DataType.read t.toValue = .ok () := by
  cases t <;> rfl

theorem readable_visibility (v : Visibility) : readable Visibility.read v.toValue = .ok () := by
  cases v <;> rfl

theorem readable_filters {s : FilterSet} (h : s.Valid) :
    readable FilterSet.read s.toValue = .ok () :=
  readable_eq_ok_iff.mpr ⟨s, FilterSet.read_toValue h⟩

end Members

theorem JourneyCollection.reads_toDocument {c : JourneyCollection} (h : c.filters.Valid) :
    Reads (read (.document c.toDocument)) := by
  have hfields : ∀ entry ∈ c.toDocument, checkMember entry.1 entry.2 = .ok () := by
    simp only [toDocument, List.forall_mem_cons, List.not_mem_nil, false_imp_iff, implies_true,
      and_true]
    exact ⟨rfl, Members.readable_filters h⟩
  refine Reads.bind ⟨(), Members.check_eq_ok_iff.mpr hfields⟩ fun _ => ?_
  exact Iff.mpr (Members.reads_required_bind_iff rfl hfields fun _ =>
    Members.reads_optional_bind_iff rfl hfields fun _ => iff_true_intro ⟨_, rfl⟩) ⟨rfl, trivial⟩

theorem Members.readable_collections {collections : List JourneyCollection}
    (h : ∀ c ∈ collections, c.filters.Valid) :
    readable (Value.readItems JourneyCollection.read) (JourneyCollection.listValue collections) =
      .ok () := by
  refine readable_eq_ok_iff.mpr (reads_mapM_iff.mpr ?_)
  intro v hv
  obtain ⟨c, hc, rfl⟩ := List.mem_map.mp hv
  exact JourneyCollection.reads_toDocument (h c hc)

namespace Record

def schema : Schema :=
  model.schema ["title", "dataType", "content"]

theorem decodes_iff (d : Document) : model.Decodes d ↔ schema.Holds d := by
  refine model.decodes_iff (fun d h => ?_) d
  have hreads : Reads (model.readBody d) ↔ (Document.get d "title").isSome = true ∧
      (Document.get d "dataType").isSome = true ∧
      (Document.get d "content").isSome = true ∧ True :=
    Members.reads_required_bind_iff rfl h fun _ => Members.reads_optional_bind_iff rfl h fun _ =>
      Members.reads_required_bind_iff rfl h fun _ => Members.reads_optional_bind_iff rfl h fun _ =>
        Members.reads_optional_bind_iff rfl h fun _ =>
          Members.reads_required_bind_iff rfl h fun _ => iff_true_intro ⟨_, rfl⟩
  simpa using hreads

/-- Records whose content is readable whatever is written into its data. -/
def soundSchema : Schema where
  accepts := fun key v => schema.accepts key v ∧ (key = "content" → Content.IsSound v)
  required := schema.required

theorem accepts_of_ne {key : String} {v : Value} (hkey : key ≠ "content")
    (h : schema.accepts key v) : soundSchema.accepts key v :=
  ⟨h, fun e => absurd e hkey⟩

theorem accepts_content {v : Value} (h : Content.IsSound v) : soundSchema.accepts "content" v :=
  ⟨Members.readable_eq_ok_iff.mpr h.reads, fun _ => h⟩

theorem keeps : model.Keeps soundSchema RecordBody.IsReadable RecordChange.IsReadable where
  decodes := fun d h => (decodes_iff d).mpr ⟨fun entry he => (h.accepted entry he).1, h.present⟩
  id := fun _ => accepts_of_ne (by decide) rfl
  createdAt := fun _ => accepts_of_ne (by decide) rfl
  updatedAt := fun _ => accepts_of_ne (by decide) rfl
  body := by
    intro b hb
    simp only [model, RecordBody.toDocument, List.forall_mem_append, List.forall_mem_cons,
      forall_mem_presentField, List.not_mem_nil, false_imp_iff, implies_true, and_true]
    refine ⟨⟨⟨⟨?title, ?description⟩, ?dataType⟩, ?dataSet⟩, ?tags, ?content⟩
    case title => exact accepts_of_ne (by decide) rfl
    case description => exact fun _ _ => accepts_of_ne (by decide) rfl
    case dataType => exact accepts_of_ne (by decide) (Members.readable_dataType b.dataType)
    case dataSet => exact fun _ _ => accepts_of_ne (by decide) rfl
    case tags => exact accepts_of_ne (by decide) (Members.readable_texts b.tags)
    case content => exact accepts_content (Content.isSound_toDocument hb)
  required := by
    intro b
    simp [soundSchema, schema, Model.schema, model, RecordBody.toDocument]
  change := by
    intro c hc
    simp only [model, RecordChange.toDocument, List.forall_mem_append, forall_mem_presentField]
    refine ⟨⟨⟨⟨⟨?title, ?description⟩, ?dataType⟩, ?dataSet⟩, ?tags⟩, ?content⟩
    case title => exact fun _ _ => ⟨by decide +kernel, accepts_of_ne (by decide) rfl⟩
    case description => exact fun _ _ => ⟨by decide +kernel, accepts_of_ne (by decide) rfl⟩
    case dataType =>
      exact fun t _ => ⟨by decide +kernel, accepts_of_ne (by decide) (Members.readable_dataType t)⟩
    case dataSet => exact fun _ _ => ⟨by decide +kernel, accepts_of_ne (by decide) rfl⟩
    case tags =>
      exact fun tags _ =>
        ⟨by decide +kernel, accepts_of_ne (by decide) (Members.readable_texts tags)⟩
    case content =>
      exact fun content h =>
        ⟨by decide +kernel, accepts_content (Content.isSound_toDocument (hc content h))⟩

end Record

namespace Journey

def schema : Schema :=
  model.schema ["title", "author", "visibility"]

theorem decodes_iff (d : Document) : model.Decodes d ↔ schema.Holds d := by
  refine model.decodes_iff (fun d h => ?_) d
  have hreads : Reads (model.readBody d) ↔ (Document.get d "title").isSome = true ∧
      (Document.get d "author").isSome = true ∧
      (Document.get d "visibility").isSome = true ∧ True :=
    Members.reads_required_bind_iff rfl h fun _ => Members.reads_optional_bind_iff rfl h fun _ =>
      Members.reads_optional_bind_iff rfl h fun _ => Members.reads_required_bind_iff rfl h fun _ =>
        Members.reads_optional_bind_iff rfl h fun _ =>
          Members.reads_optional_bind_iff rfl h fun _ =>
            Members.reads_required_bind_iff rfl h fun _ =>
              Members.reads_optional_bind_iff rfl h fun _ => iff_true_intro ⟨_, rfl⟩
  simpa using hreads

theorem keeps : model.Keeps schema JourneyBody.IsReadable JourneyChange.IsReadable where
  decodes := fun d h => (decodes_iff d).mpr h
  id := fun _ => rfl
  createdAt := fun _ => rfl
  updatedAt := fun _ => rfl
  body := by
    intro b hb
    simp only [model, JourneyBody.toDocument, List.forall_mem_append, List.forall_mem_cons,
      forall_mem_presentField, List.not_mem_nil, false_imp_iff, implies_true, and_true]
    refine ⟨⟨⟨⟨?title, ?description⟩, ?tags, ?author⟩, ?parent⟩, ?collections, ?visibility,
      ?excluded⟩
    case title => rfl
    case description => exact fun _ _ => rfl
    case tags => exact Members.readable_texts b.tags
    case author => rfl
    case parent => exact fun _ _ => rfl
    case collections => exact Members.readable_collections hb
    case visibility => exact Members.readable_visibility b.visibility
    case excluded => exact Members.readable_texts b.excludedIds
  required := by
    intro b
    simp [schema, Model.schema, model, JourneyBody.toDocument]
  change := by
    intro change hchange
    simp only [model, JourneyChange.toDocument, List.forall_mem_append, forall_mem_presentField]
    refine ⟨⟨⟨⟨⟨⟨⟨?title, ?description⟩, ?tags⟩, ?author⟩, ?parent⟩, ?collections⟩, ?visibility⟩,
      ?excluded⟩
    case title => exact fun _ _ => ⟨by decide +kernel, rfl⟩
    case description => exact fun _ _ => ⟨by decide +kernel, rfl⟩
    case tags => exact fun tags _ => ⟨by decide +kernel, Members.readable_texts tags⟩
    case author => exact fun _ _ => ⟨by decide +kernel, rfl⟩
    case parent => exact fun _ _ => ⟨by decide +kernel, rfl⟩
    case collections =>
      exact fun collections h =>
        ⟨by decide +kernel, Members.readable_collections (hchange collections h)⟩
    case visibility => exact fun v _ => ⟨by decide +kernel, Members.readable_visibility v⟩
    case excluded => exact fun ids _ => ⟨by decide +kernel, Members.readable_texts ids⟩

end Journey

namespace Trace

def schema : Schema :=
  model.schema ["title", "author", "visibility"]

theorem decodes_iff (d : Document) : model.Decodes d ↔ schema.Holds d := by
  refine model.decodes_iff (fun d h => ?_) d
  have hreads : Reads (model.readBody d) ↔ (Document.get d "title").isSome = true ∧
      (Document.get d "author").isSome = true ∧
      (Document.get d "visibility").isSome = true ∧ True :=
    Members.reads_required_bind_iff rfl h fun _ => Members.reads_optional_bind_iff rfl h fun _ =>
      Members.reads_optional_bind_iff rfl h fun _ => Members.reads_required_bind_iff rfl h fun _ =>
        Members.reads_optional_bind_iff rfl h fun _ =>
          Members.reads_required_bind_iff rfl h fun _ =>
            Members.reads_optional_bind_iff rfl h fun _ => iff_true_intro ⟨_, rfl⟩
  simpa using hreads

theorem keeps : model.Keeps schema TraceBody.IsReadable TraceChange.IsReadable where
  decodes := fun d h => (decodes_iff d).mpr h
  id := fun _ => rfl
  createdAt := fun _ => rfl
  updatedAt := fun _ => rfl
  body := by
    intro b hb
    simp only [model, TraceBody.toDocument, List.forall_mem_append, List.forall_mem_cons,
      forall_mem_presentField, List.not_mem_nil, false_imp_iff, implies_true, and_true]
    refine ⟨⟨⟨⟨?title, ?description⟩, ?tags, ?author⟩, ?parent⟩, ?visibility, ?filters⟩
    case title => rfl
    case description => exact fun _ _ => rfl
    case tags => exact Members.readable_texts b.tags
    case author => rfl
    case parent => exact fun _ _ => rfl
    case visibility => exact Members.readable_visibility b.visibility
    case filters => exact Members.readable_filters hb
  required := by
    intro b
    simp [schema, Model.schema, model, TraceBody.toDocument]
  change := by
    intro change hchange
    simp only [model, TraceChange.toDocument, List.forall_mem_append, forall_mem_presentField]
    refine ⟨⟨⟨⟨⟨⟨?title, ?description⟩, ?tags⟩, ?author⟩, ?parent⟩, ?visibility⟩, ?filters⟩
    case title => exact fun _ _ => ⟨by decide +kernel, rfl⟩
    case description => exact fun _ _ => ⟨by decide +kernel, rfl⟩
    case tags => exact fun tags _ => ⟨by decide +kernel, Members.readable_texts tags⟩
    case author => exact fun _ _ => ⟨by decide +kernel, rfl⟩
    case parent => exact fun _ _ => ⟨by decide +kernel, rfl⟩
    case visibility => exact fun v _ => ⟨by decide +kernel, Members.readable_visibility v⟩
    case filters =>
      exact fun s h => ⟨by decide +kernel, Members.readable_filters (hchange s h)⟩

end Trace

end DocumentStore
