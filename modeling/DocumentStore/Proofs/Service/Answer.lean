import DocumentStore.Proofs.Entity.Stored
import DocumentStore.Proofs.Service.Identity
import DocumentStore.Proofs.Service.Refusal

/-! Answers without faults of decoding. A request that stores a document answers what is read from
it, and one that only reads or removes documents meets stored ones alone, so that no fault of
decoding is answered exactly if every document can be read afterwards. -/

namespace DocumentStore

theorem ServiceFault.code_ne_deserializationError_iff {fault : ServiceFault} :
    fault.report.code ≠ .deserializationError ↔ fault.isDecode = false := by
  cases fault with
  | query => exact iff_of_true (show ErrorCode.databaseError ≠ _ by decide) rfl
  | insert fault =>
    cases fault with
    | identifierKind => exact iff_of_true (show ErrorCode.internal ≠ _ by decide) rfl
    | duplicateKey => exact iff_of_true (show ErrorCode.databaseError ≠ _ by decide) rfl
  | filter fault =>
    refine iff_of_true (fun hcode => ?_) rfl
    have hcaller := fault.report_isCallerError
    have hfault : fault.report.code = .deserializationError := hcode
    rw [ErrorReport.isCallerError, hfault] at hcaller
    exact absurd hcaller (by decide)
  | decode => exact iff_of_false (fun h => h rfl) (by simp [isDecode])
  | notFound => exact iff_of_true (show ErrorCode.recordNotFound ≠ _ by decide) rfl
  | noValue => exact iff_of_true (show ErrorCode.recordNotFound ≠ _ by decide) rfl
  | emptyPath => exact iff_of_true (show ErrorCode.invalidInput ≠ _ by decide) rfl
  | identifierPath => exact iff_of_true (show ErrorCode.invalidInput ≠ _ by decide) rfl

/-- No document was met that cannot be read. -/
def Clean {α : Type} (answer : Except ServiceFault α) : Prop :=
  ∀ fault, answer = .error fault → fault.isDecode = false

section Clean

variable {α β : Type}

theorem clean_ok (a : α) : Clean (.ok a) :=
  fun _ h => nomatch h

theorem clean_error_iff {fault : ServiceFault} :
    Clean (.error fault : Except ServiceFault α) ↔ fault.isDecode = false :=
  ⟨fun h => h fault rfl, fun h _ he => Except.error.inj he ▸ h⟩

theorem clean_map_iff {answer : Except ServiceFault α} {g : α → β} :
    Clean (answer.map g) ↔ Clean answer := by
  cases answer with
  | ok a => exact iff_of_true (clean_ok (g a)) (clean_ok a)
  | error fault => exact clean_error_iff.trans clean_error_iff.symm

theorem clean_mapM {f : α → Except ServiceFault β} {xs : List α} (h : ∀ a ∈ xs, Clean (f a)) :
    Clean (xs.mapM f) := by
  intro fault hfault
  obtain ⟨a, ha, hf⟩ := Traversal.exists_mem_of_mapM_error hfault
  exact h a ha fault hf

theorem clean_faultOf_iff {answer : Except ServiceFault α} :
    (∀ fault ∈ faultOf answer, fault.isDecode = false) ↔ Clean answer := by
  cases answer with
  | ok a => exact iff_of_true (by simp [faultOf]) (clean_ok a)
  | error fault => simp [faultOf, clean_error_iff]

end Clean

namespace Model

variable {β δ : Type} (m : Model β δ) {c : Collection}

theorem clean_decodeStored_iff {d : Document} : Clean (m.decodeStored d) ↔ m.Decodes d := by
  rw [decodeStored, Decodes]
  cases m.decode d with
  | ok e => exact iff_of_true (clean_ok e) ⟨e, rfl⟩
  | error cause =>
    refine clean_error_iff.trans (iff_of_false (by simp [ServiceFault.isDecode]) ?_)
    rintro ⟨e, he⟩
    cases he

theorem get_cases (c : Collection) (id : ObjectId) :
    Clean (m.get c id) ∨ ∃ d ∈ c.documents, m.get c id = m.decodeStored d := by
  unfold get Collection.findOne
  cases hs : Collection.splitFirst (Query.byId id) c.documents with
  | error fault => exact .inl (clean_error_iff.mpr rfl)
  | ok split =>
    cases split with
    | none => exact .inl (clean_error_iff.mpr rfl)
    | some parts =>
      obtain ⟨before, found, after⟩ := parts
      exact .inr ⟨found, by simp [(Collection.splitFirst_eq_some_iff.mp hs).1], rfl⟩

theorem filteredDocuments_cases (c : Collection) (s : FilterSet) (page : Pagination)
    (projection : Projection) :
    (∃ fault, fault.isDecode = false ∧ m.filteredDocuments c s page projection = .error fault) ∨
    ∃ listing, m.filteredDocuments c s page projection = .ok listing ∧
      ∀ d ∈ listing.results, ∃ d' ∈ c.documents, projection.view m.bulkField d' = d := by
  cases hplan : MatchPlan.ofFilterSet s with
  | error fault =>
    refine .inl ⟨.filter fault, rfl, ?_⟩
    rw [filteredDocuments, hplan]
    rfl
  | ok plan =>
    cases hrun : Pipeline.run (Pipeline.ofStages plan.stages) c.documents with
    | error fault =>
      exact .inl ⟨.query fault, rfl, m.filteredDocuments_error page projection hplan hrun⟩
    | ok found =>
      obtain ⟨counted, k, l, -, -, -, hlisting⟩ :=
        m.filteredDocuments_of_run page projection hplan hrun
      refine .inr ⟨_, hlisting, ?_⟩
      intro d hd
      obtain ⟨d', hd', hview⟩ := List.mem_map.mp hd
      have hfound : d' ∈ found := List.mem_of_mem_drop (List.mem_of_mem_take hd')
      exact ⟨d', (Pipeline.sublist_of_run_stages hrun).subset hfound, hview⟩

/-- Documents that are read stay so in every listing. -/
def ListsReadably : Prop :=
  ∀ (projection : Projection) (d : Document),
    m.Decodes d → m.Decodes (projection.view m.bulkField d)

variable {m}

theorem clean_filtered (hm : m.ListsReadably) (h : ∀ d ∈ c.documents, m.Decodes d) (s : FilterSet)
    (page : Pagination) (projection : Projection) : Clean (m.filtered c s page projection) := by
  rcases m.filteredDocuments_cases c s page projection with
    ⟨fault, hfault, herror⟩ | ⟨listing, hlisting, hresults⟩
  · rw [m.filtered_error page projection herror]
    exact clean_error_iff.mpr hfault
  · rw [m.filtered_of_documents page projection hlisting, Listing.mapResult]
    refine clean_map_iff.mpr (clean_mapM ?_)
    intro d hd
    obtain ⟨d', hd', rfl⟩ := hresults d hd
    exact m.clean_decodeStored_iff.mpr (hm projection d' (h d' hd'))

theorem clean_get (h : ∀ d ∈ c.documents, m.Decodes d) (id : ObjectId) : Clean (m.get c id) := by
  rcases m.get_cases c id with hclean | ⟨d, hd, hget⟩
  · exact hclean
  · rw [hget]
    exact m.clean_decodeStored_iff.mpr (h d hd)

end Model

theorem Record.listsReadably : Record.model.ListsReadably := by
  intro projection d hd
  rw [view_eq_listed]
  cases projection with
  | full => exact hd
  | metadataOnly =>
    rw [listed, Document.withoutData]
    split
    · next content hget =>
      have hholds := (decodes_iff d).mp hd
      have hcontent : Reads (Content.read (.document content)) :=
        Members.readable_eq_ok_iff.mp (hholds.accepted _ (Document.mem_of_get hget))
      refine (decodes_iff _).mpr (hholds.insert ?_)
      exact Members.readable_eq_ok_iff.mpr (Content.reads_erase_data hcontent)
    · exact hd

theorem Journey.listsReadably : Journey.model.ListsReadably := by
  intro projection d hd
  cases projection <;> exact hd

theorem Trace.listsReadably : Trace.model.ListsReadably := by
  intro projection d hd
  cases projection <;> exact hd

namespace Collection

/-- The documents of a collection are all of one kind. -/
def All (p : Document → Prop) (c : Collection) : Prop :=
  ∀ d ∈ c.documents, p d

section All

variable {p : Document → Prop} {c : Collection} {before after : List Document} {found : Document}

theorem All.split (h : c.All p) (hds : c.documents = before ++ found :: after) :
    (∀ d ∈ before, p d) ∧ p found ∧ ∀ d ∈ after, p d := by
  rwa [All, hds, List.forall_mem_append, List.forall_mem_cons] at h

theorem All.replace (h : c.All p) (hds : c.documents = before ++ found :: after)
    {updated : Document} (hp : p updated) :
    All p { c with documents := before ++ updated :: after } := by
  obtain ⟨hbefore, -, hafter⟩ := h.split hds
  exact List.forall_mem_append.mpr ⟨hbefore, List.forall_mem_cons.mpr ⟨hp, hafter⟩⟩

theorem All.remove (h : c.All p) (hds : c.documents = before ++ found :: after) :
    All p { c with documents := before ++ after } := by
  obtain ⟨hbefore, -, hafter⟩ := h.split hds
  exact List.forall_mem_append.mpr ⟨hbefore, hafter⟩

theorem All.filter (h : c.All p) (keep : Document → Bool) :
    All p { c with documents := c.documents.filter keep } :=
  fun d hd => h d (List.mem_of_mem_filter hd)

theorem All.append (h : c.All p) {d : Document} (hd : p d) :
    All p { c with documents := c.documents ++ [d] } :=
  List.forall_mem_append.mpr ⟨h, List.forall_mem_singleton.mpr hd⟩

end All

end Collection

namespace Model

variable {β δ : Type} (m : Model β δ) {c : Collection}

theorem create_cases (hm : m.SparesId) (c : Collection) (fresh : ObjectId) (now : Int64)
    (body : β) :
    (∃ fault, fault.isDecode = false ∧ m.create c fresh now body = (.error fault, c)) ∨
    m.create c fresh now body = (m.decodeStored (m.newDocument fresh now body),
      { c with documents := c.documents ++ [m.newDocument fresh now body] }) := by
  have hid := m.get_newDocument_id hm fresh now body
  cases h : c.holdsId fresh with
  | true => exact .inl ⟨_, rfl, m.create_of_held hid h⟩
  | false => exact .inr (m.create_of_new hid h)

theorem delete_cases (c : Collection) (id : ObjectId) :
    (∃ fault, fault.isDecode = false ∧ m.delete c id = (.error fault, c)) ∨
    ∃ before found after, c.documents = before ++ found :: after ∧
      m.delete c id = (m.decodeStored found, { c with documents := before ++ after }) := by
  cases hs : Collection.splitFirst (Query.byId id) c.documents with
  | error fault => exact .inl ⟨_, rfl, m.delete_of_error hs⟩
  | ok split =>
    cases split with
    | none => exact .inl ⟨_, rfl, m.delete_of_none hs⟩
    | some parts =>
      obtain ⟨before, found, after⟩ := parts
      exact .inr ⟨before, found, after, (Collection.splitFirst_eq_some_iff.mp hs).1,
        m.delete_of_some hs⟩

theorem deleteMany_cases (c : Collection) (ids : List ObjectId) :
    (∃ fault, fault.isDecode = false ∧ m.deleteMany c ids = (.error fault, c)) ∨
    ∃ named : Document → Bool, m.deleteMany c ids =
      ((c.documents.filter named).mapM m.decodeStored,
        { c with documents := c.documents.filter (fun d => !named d) }) := by
  cases ids with
  | nil =>
    refine .inr ⟨fun _ => false, ?_⟩
    have hfound : c.documents.filter (fun _ => false) = [] := List.filter_eq_nil_iff.mpr (by simp)
    have hkept : c.documents.filter (fun _ => true) = c.documents :=
      List.filter_eq_self.mpr (by simp)
    change (Except.ok [], c) = ((c.documents.filter fun _ => false).mapM m.decodeStored,
      { c with documents := c.documents.filter fun _ => true })
    rw [hfound, hkept]
    rfl
  | cons id ids =>
    cases hfound : Stage.keep (Query.byIds (id :: ids)) c.documents with
    | error fault =>
      refine .inl ⟨.query fault, rfl, ?_⟩
      have hfind : c.find (Query.byIds (id :: ids)) = .error fault := hfound
      simp only [deleteMany, List.isEmpty_cons, Bool.false_eq_true, if_false, hfind]
    | ok found =>
      have hanswers := Collection.answers_of_keep hfound
      exact .inr ⟨_, m.deleteMany_of_ok (by simp) (Collection.keep_of_answers hanswers)
        (Collection.rest_of_answers hanswers)⟩

theorem clean_create_iff (hm : m.SparesId) (h : c.All m.Decodes) (fresh : ObjectId) (now : Int64)
    (body : β) : Clean (m.create c fresh now body).1 ↔
      (m.create c fresh now body).2.All m.Decodes := by
  rcases m.create_cases hm c fresh now body with ⟨fault, hfault, hcreate⟩ | hcreate
  · rw [hcreate]
    exact iff_of_true (clean_error_iff.mpr hfault) h
  · rw [hcreate]
    exact m.clean_decodeStored_iff.trans ⟨fun hd => h.append hd, fun hall => hall _ (by simp)⟩

theorem clean_write_iff (h : c.All m.Decodes) (operation : String) (id : ObjectId)
    (update : Document) : Clean (m.write c operation id update).1 ↔
      (m.write c operation id update).2.All m.Decodes := by
  rcases m.write_cases c operation id update with
    ⟨fault, hfault, hwrite⟩ | ⟨before, found, after, updated, hds, -, hwrite⟩
  · rw [hwrite]
    exact iff_of_true (clean_error_iff.mpr hfault) h
  · rw [hwrite]
    exact m.clean_decodeStored_iff.trans
      ⟨fun hd => h.replace hds hd, fun hall => hall _ (by simp)⟩

theorem clean_delete (h : c.All m.Decodes) (id : ObjectId) :
    Clean (m.delete c id).1 ∧ (m.delete c id).2.All m.Decodes := by
  rcases m.delete_cases c id with
    ⟨fault, hfault, hdelete⟩ | ⟨before, found, after, hds, hdelete⟩
  · rw [hdelete]
    exact ⟨clean_error_iff.mpr hfault, h⟩
  · obtain ⟨-, hfound, -⟩ := h.split hds
    rw [hdelete]
    exact ⟨m.clean_decodeStored_iff.mpr hfound, h.remove hds⟩

theorem clean_deleteMany (h : c.All m.Decodes) (ids : List ObjectId) :
    Clean (m.deleteMany c ids).1 ∧ (m.deleteMany c ids).2.All m.Decodes := by
  rcases m.deleteMany_cases c ids with ⟨fault, hfault, hdelete⟩ | ⟨named, hdelete⟩
  · rw [hdelete]
    exact ⟨clean_error_iff.mpr hfault, h⟩
  · rw [hdelete]
    refine ⟨clean_mapM fun d hd => m.clean_decodeStored_iff.mpr ?_, h.filter _⟩
    exact h d (List.mem_of_mem_filter hd)

/-- A request that stores a document answers what is read from it. -/
theorem clean_serve_iff (hm : m.SparesId) (h : c.All m.Decodes) (r : Request β δ) :
    Clean (m.serve c r).1 ↔ (m.serve c r).2.All m.Decodes := by
  cases r with
  | create fresh now body => exact clean_map_iff.trans (m.clean_create_iff hm h fresh now body)
  | update now id change => exact clean_map_iff.trans (m.clean_write_iff h _ id _)
  | delete id =>
    obtain ⟨hclean, hall⟩ := m.clean_delete h id
    exact iff_of_true (clean_map_iff.mpr hclean) hall
  | deleteMany ids =>
    obtain ⟨hclean, hall⟩ := m.clean_deleteMany h ids
    exact iff_of_true hclean hall

end Model

namespace Record

theorem clean_writeEach_iff
    {write : Collection → ObjectId → Except ServiceFault (List Record) × Collection}
    (hw : ∀ c id, c.All model.Decodes → (Clean (write c id).1 ↔ (write c id).2.All model.Decodes))
    (ids : List ObjectId) {c : Collection} (h : c.All model.Decodes) :
    Clean (writeEach write ids c).1 ↔ (writeEach write ids c).2.All model.Decodes := by
  induction ids generalizing c with
  | nil => exact iff_of_true (clean_ok []) h
  | cons id ids ih =>
    have hserved := hw c id h
    unfold writeEach
    split
    · next fault c' hwrite =>
      rw [hwrite] at hserved
      exact hserved
    · next written c' hwrite =>
      rw [hwrite] at hserved
      exact clean_map_iff.trans (ih (hserved.mp (clean_ok written)))

theorem clean_checkWritable {path : FieldPath} {fault : ServiceFault}
    (h : checkWritable path = .error fault) : fault.isDecode = false := by
  unfold checkWritable at h
  split at h
  · cases h
    rfl
  · split at h
    · cases h
      rfl
    · cases h

theorem clean_skipMissing_iff {answer : Except ServiceFault Record} :
    Clean (skipMissing answer) ↔ Clean answer := by
  unfold skipMissing
  split
  · exact iff_of_true (clean_ok _) (clean_ok _)
  · exact iff_of_true (clean_ok _) (clean_error_iff.mpr rfl)
  · exact clean_error_iff.trans clean_error_iff.symm

theorem clean_updateNested_iff {c : Collection} (h : c.All model.Decodes) (now : Int64)
    (ids : List ObjectId) (path : FieldPath) (v : Value) :
    Clean (updateNested c now ids path v).1 ↔
      (updateNested c now ids path v).2.All model.Decodes := by
  unfold updateNested
  split
  · next fault hpath => exact iff_of_true (clean_error_iff.mpr (clean_checkWritable hpath)) h
  · exact clean_writeEach_iff
      (fun c id hc => clean_map_iff.trans (model.clean_write_iff hc _ id _)) ids h

theorem clean_deleteNested_iff {c : Collection} (h : c.All model.Decodes) (now : Int64)
    (ids : List ObjectId) (path : FieldPath) :
    Clean (deleteNested c now ids path).1 ↔
      (deleteNested c now ids path).2.All model.Decodes := by
  unfold deleteNested
  split
  · next fault hpath => exact iff_of_true (clean_error_iff.mpr (clean_checkWritable hpath)) h
  · exact clean_writeEach_iff
      (fun c id hc => clean_skipMissing_iff.trans (model.clean_write_iff hc _ id _)) ids h

end Record

end DocumentStore
