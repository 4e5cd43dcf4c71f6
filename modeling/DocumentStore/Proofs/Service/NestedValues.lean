import DocumentStore.Proofs.Entity.Written
import DocumentStore.Proofs.Service.Decoding

/-! Writes of one value inside several records. Each record that is named is written once, however
often it is named, and where a request ends with a fault those named before stay written. -/

namespace DocumentStore

theorem Document.hasIdIn_cons (d : Document) (id : ObjectId) (ids : List ObjectId) :
    d.hasIdIn (id :: ids) = (d.hasIdIn [id] || d.hasIdIn ids) := by
  unfold hasIdIn
  cases d.id? with
  | error fault => rfl
  | ok other => simp [Except.toOption]

theorem Document.hasIdIn_iff {d : Document} {ids : List ObjectId} :
    d.hasIdIn ids = true ↔ ∃ id ∈ ids, d.id? = .ok id := by
  unfold hasIdIn
  cases d.id? with
  | error fault => simp [Except.toOption]
  | ok other => simp [Except.toOption]

namespace Collection

/-- The collection with the documents of some identifiers changed in their places. -/
def rewrite (c : Collection) (named : List ObjectId) (f : Document → Document) : Collection :=
  { c with documents := c.documents.map (fun d => if d.hasIdIn named then f d else d) }

variable {c : Collection} {ids named : List ObjectId} {f : Document → Document} {id : ObjectId}

theorem rewrite_nil (c : Collection) (f : Document → Document) : c.rewrite [] f = c := by
  have hnone (d : Document) : d.hasIdIn [] = false := by
    unfold Document.hasIdIn
    cases d.id? <;> rfl
  simp [rewrite, hnone]

theorem rewrite_singleton {name : String} {d : Document} (hid : d.id? = .ok id)
    (f : Document → Document) : (⟨name, [d]⟩ : Collection).rewrite [id] f = ⟨name, [f d]⟩ := by
  have hnamed : d.hasIdIn [id] = true := Document.hasIdIn_iff.mpr ⟨id, by simp, hid⟩
  simp [rewrite, hnamed]

theorem HasIds.rewrite (h : c.HasIds ids)
    (hf : ∀ d ∈ c.documents, d.hasIdIn named = true → (f d).id? = d.id?) :
    (c.rewrite named f).HasIds ids := by
  refine Eq.trans ?_ h
  rw [Collection.rewrite, List.map_map]
  refine List.map_congr_left ?_
  intro d hd
  rw [Function.comp_apply]
  split
  · next hnamed => exact hf d hd hnamed
  · rfl

theorem mem_rewrite {d : Document} (hd : d ∈ c.documents) (hid : d.id? = .ok id)
    (hnamed : id ∈ named) (f : Document → Document) : f d ∈ (c.rewrite named f).documents :=
  List.mem_map.mpr ⟨d, hd, if_pos (Document.hasIdIn_iff.mpr ⟨id, hnamed, hid⟩)⟩

theorem mem_rewrite_iff (hf : ∀ d, (f d).id? = d.id?) {d : Document} (hid : d.id? = .ok id)
    (hnamed : id ∉ named) : d ∈ (c.rewrite named f).documents ↔ d ∈ c.documents := by
  have hunnamed {other : Document} (hother : other.id? = .ok id) :
      ¬ other.hasIdIn named = true := by
    rw [Document.hasIdIn_of_id? _ hother]
    simpa using hnamed
  constructor
  · intro hd
    obtain ⟨other, hother, he⟩ := List.mem_map.mp hd
    have hid' : other.id? = .ok id := by
      rw [← hid, ← he]
      split
      · exact (hf other).symm
      · rfl
    rw [if_neg (hunnamed hid')] at he
    exact he ▸ hother
  · intro hd
    exact List.mem_map.mpr ⟨d, hd, if_neg (hunnamed hid)⟩

theorem HasIds.hasIdIn_cons (h : c.HasIds ids) (hid : id ∉ ids) {d : Document}
    (hd : d ∈ c.documents) (named : List ObjectId) : d.hasIdIn (id :: named) = d.hasIdIn named := by
  obtain ⟨id', hid', he⟩ := h.exists_id hd
  have hne : id' ≠ id := fun e => hid (e ▸ hid')
  simp [Document.hasIdIn_of_id? _ he, hne]

theorem HasIds.eq_of_hasIdIn (h : c.HasIds ids) (hn : ids.Nodup) {d other : Document}
    (hd : d ∈ c.documents) (hid : d.id? = .ok id) (hother : other ∈ c.documents)
    (hnamed : other.hasIdIn [id] = true) : other = d := by
  obtain ⟨id', hid', he⟩ := Document.hasIdIn_iff.mp hnamed
  obtain rfl := List.mem_singleton.mp hid'
  exact h.eq_of_id? hn hother hd (he.trans hid.symm)

theorem HasIds.rewrite_cons (h : c.HasIds ids) (hid : id ∉ ids) (named : List ObjectId)
    (f : Document → Document) : c.rewrite (id :: named) f = c.rewrite named f := by
  rw [Collection.rewrite, Collection.rewrite]
  congr 1
  refine List.map_congr_left ?_
  intro d hd
  rw [h.hasIdIn_cons hid hd]

theorem rewrite_rewrite
    (hf : ∀ d ∈ c.documents, d.hasIdIn [id] = true → (f d).id? = d.id? ∧ f (f d) = f d) :
    (c.rewrite [id] f).rewrite named f = c.rewrite (id :: named) f := by
  rw [rewrite, rewrite, rewrite]
  congr 1
  rw [List.map_map]
  refine List.map_congr_left ?_
  intro d hd
  rw [Function.comp_apply, Document.hasIdIn_cons d id named]
  cases hid : d.hasIdIn [id] with
  | false => simp
  | true =>
    obtain ⟨-, htwice⟩ := hf d hd hid
    simp [htwice]

end Collection

namespace Model

variable {β δ : Type} (m : Model β δ) {c : Collection} {ids : List ObjectId}

theorem write_of_notMem (h : c.HasIds ids) (operation : String) {id : ObjectId} (hid : id ∉ ids)
    (update : Document) :
    m.write c operation id update = (.error (.notFound m.name operation id), c) := by
  simp only [write, Collection.findOneAndUpdate, h.splitFirst_of_notMem hid]
  rfl

section Stored

variable {d update : Document} {id : ObjectId} (h : c.HasIds ids) (hn : ids.Nodup)
  (hd : d ∈ c.documents) (hid : d.id? = .ok id) (operation : String)

include h hn hd hid

theorem write_of_refused {fault : QueryFault} (hu : Document.update d update = .error fault) :
    m.write c operation id update = (.error (.query fault), c) := by
  obtain ⟨before, after, hs, -⟩ := h.splitFirst_of_mem hn hd hid
  simp only [write, Collection.findOneAndUpdate, hs, hu, bind, Except.bind]

theorem write_of_mem {f : Document → Document} (hu : Document.update d update = .ok (f d)) :
    m.write c operation id update = (m.decodeStored (f d), c.rewrite [id] f) := by
  obtain ⟨before, after, hs, hothers⟩ := h.splitFirst_of_mem hn hd hid
  have hds := (Collection.splitFirst_eq_some_iff.mp hs).1
  have hnamed : d.hasIdIn [id] = true := Document.hasIdIn_iff.mpr ⟨id, by simp, hid⟩
  have hkept : ∀ others : List Document, (∀ other ∈ others, other.hasIdIn [id] = false) →
      others.map (fun d => if d.hasIdIn [id] then f d else d) = others := by
    intro others hothers
    refine (List.map_congr_left fun other hother => ?_).trans (List.map_id others)
    rw [hothers other hother]
    rfl
  rw [m.write_of_split hs hu, Collection.rewrite, hds, List.map_append, List.map_cons, hnamed,
    hkept before fun other hother => hothers other (by simp [hother]),
    hkept after fun other hother => hothers other (by simp [hother])]
  rfl

end Stored

end Model

/-- Nothing is found, as the caller sees it. -/
def IsNotFound {α : Type} (answer : Except ServiceFault α) : Prop :=
  ∃ fault, answer = .error fault ∧ fault.report.code = .recordNotFound

namespace Record

/-- An update that makes of a document one that it leaves as it is, with the same identifier, and
that is read as a record. -/
structure Settles (update : Document) (f : Document → Document) (d : Document) : Prop where
  first : Document.update d update = .ok (f d)
  again : Document.update (f d) update = .ok (f d)
  fixed : f (f d) = f d
  id : (f d).id? = d.id?
  decodes : model.Decodes (f d)

/-- A request that writes each of several records, and what it makes of the answer for one. -/
def ofEach (operation : String) (update : Document)
    (answer : Except ServiceFault Record → Except ServiceFault (List Record)) (c : Collection)
    (id : ObjectId) : Except ServiceFault (List Record) × Collection :=
  let (r, c) := model.write c operation id update
  (answer r, c)

section Each

variable {operation : String} {update : Document} {f : Document → Document}
  {answer : Except ServiceFault Record → Except ServiceFault (List Record)} {c : Collection}
  {ids named : List ObjectId}

theorem Settles.step {d : Document} (h : Settles update f d) : Settles update f (f d) where
  first := h.again.trans (congrArg Except.ok h.fixed.symm)
  again := by rw [h.fixed, h.again]
  fixed := by rw [h.fixed, h.fixed]
  id := by rw [h.fixed]
  decodes := by rw [h.fixed]; exact h.decodes

theorem writeEach_of_ok
    {write : Collection → ObjectId → Except ServiceFault (List Record) × Collection}
    {id : ObjectId} {written : List Record} {c' : Collection} (h : write c id = (.ok written, c'))
    (named : List ObjectId) : writeEach write (id :: named) c =
      ((writeEach write named c').1.map (written ++ ·), (writeEach write named c').2) := by
  rw [writeEach, h]

theorem writeEach_of_error
    {write : Collection → ObjectId → Except ServiceFault (List Record) × Collection}
    {id : ObjectId} {fault : ServiceFault} {c' : Collection} (h : write c id = (.error fault, c'))
    (named : List ObjectId) : writeEach write (id :: named) c = (.error fault, c') := by
  rw [writeEach, h]

theorem writeEach_cons_ok
    {write : Collection → ObjectId → Except ServiceFault (List Record) × Collection}
    {id : ObjectId} {records : List Record} {c' : Collection}
    (h : writeEach write (id :: named) c = (.ok records, c')) :
    ∃ first c₁ later, write c id = (.ok first, c₁) ∧
      writeEach write named c₁ = (.ok later, c') ∧ records = first ++ later := by
  rcases hstep : write c id with ⟨step, c₁⟩
  cases step with
  | error fault =>
    rw [writeEach_of_error hstep] at h
    cases h
  | ok first =>
    rw [writeEach_of_ok hstep] at h
    rcases hrest : writeEach write named c₁ with ⟨answer, c₂⟩
    rw [hrest] at h
    obtain ⟨hrecords, rfl⟩ := Prod.mk.inj h
    cases answer with
    | error fault => cases hrecords
    | ok later =>
      cases hrecords
      exact ⟨first, c₁, later, rfl, hrest, rfl⟩

theorem writeEach_append
    {write : Collection → ObjectId → Except ServiceFault (List Record) × Collection}
    {before : List ObjectId} {records : List Record} {c' : Collection}
    (h : writeEach write before c = (.ok records, c')) (named : List ObjectId) :
    writeEach write (before ++ named) c =
      ((writeEach write named c').1.map (records ++ ·), (writeEach write named c').2) := by
  induction before generalizing c records with
  | nil =>
    obtain ⟨hrecords, rfl⟩ := Prod.mk.inj h
    cases hrecords
    refine Prod.ext ?_ rfl
    change (writeEach write named c).1 = (writeEach write named c).1.map ([] ++ ·)
    cases (writeEach write named c).1 <;> rfl
  | cons id before ih =>
    obtain ⟨first, c₁, later, hstep, hlater, rfl⟩ := writeEach_cons_ok h
    rw [List.cons_append, writeEach_of_ok hstep, ih hlater]
    refine Prod.ext ?_ rfl
    cases (writeEach write named c').1 <;> simp [Except.map]

theorem ofEach_eq {id : ObjectId} {r : Except ServiceFault Record} {c' : Collection}
    (h : model.write c operation id update = (r, c')) :
    ofEach operation update answer c id = (answer r, c') := by
  rw [ofEach, h]

theorem settles_of_rewrite {id : ObjectId}
    (hs : ∀ d ∈ c.documents, d.hasIdIn (id :: named) = true → Settles update f d) :
    ∀ d ∈ (c.rewrite [id] f).documents, d.hasIdIn named = true → Settles update f d := by
  intro d' hd' hnamed
  obtain ⟨d, hd, rfl⟩ := List.mem_map.mp hd'
  cases hthis : d.hasIdIn [id] with
  | true =>
    simp only [if_true]
    exact (hs d hd (by rw [Document.hasIdIn_cons, hthis, Bool.true_or])).step
  | false =>
    simp only [hthis, Bool.false_eq_true, if_false] at hnamed ⊢
    exact hs d hd (by rw [Document.hasIdIn_cons, hthis, hnamed, Bool.false_or])

theorem writeEach_of_settles (hanswer : ∀ r, answer (.ok r) = .ok [r]) (h : c.HasIds ids)
    (hn : ids.Nodup)
    (hs : ∀ d ∈ c.documents, d.hasIdIn named = true → Settles update f d)
    (hmissing : ∀ id ∈ named, id ∉ ids →
      answer (.error (.notFound model.name operation id)) = .ok []) :
    ∃ records, writeEach (ofEach operation update answer) named c =
        (.ok records, c.rewrite named f) ∧
      records.map Entity.id = named.filter (· ∈ ids) := by
  induction named generalizing c with
  | nil => exact ⟨[], by rw [c.rewrite_nil f]; rfl, rfl⟩
  | cons id named ih =>
    have hmissing' : ∀ i ∈ named, i ∉ ids →
        answer (.error (.notFound model.name operation i)) = .ok [] :=
      fun i hi => hmissing i (by simp [hi])
    by_cases hid : id ∈ ids
    · obtain ⟨d, hd, he⟩ := h.exists_document hid
      have hsettles : ∀ d ∈ c.documents, d.hasIdIn [id] = true → Settles update f d :=
        fun d hd hnamed => hs d hd (by rw [Document.hasIdIn_cons, hnamed, Bool.true_or])
      have hnamed : d.hasIdIn [id] = true := Document.hasIdIn_iff.mpr ⟨id, by simp, he⟩
      have hsd := hsettles d hd hnamed
      obtain ⟨r, hr⟩ := hsd.decodes
      have hwrite := model.write_of_mem h hn hd he operation hsd.first
      have hids := h.rewrite fun d hd hnamed => (hsettles d hd hnamed).id
      obtain ⟨records, hrecords, hlisted⟩ := ih hids (settles_of_rewrite hs) hmissing'
      refine ⟨r :: records, ?_, ?_⟩
      · have hstep : ofEach operation update answer c id = (.ok [r], c.rewrite [id] f) := by
          rw [ofEach_eq hwrite, model.decodeStored_ok_iff.mpr hr, hanswer]
        rw [writeEach_of_ok hstep, hrecords, Collection.rewrite_rewrite fun d hd hnamed =>
          ⟨(hsettles d hd hnamed).id, (hsettles d hd hnamed).fixed⟩]
        rfl
      · rw [List.map_cons, hlisted, model.id_of_decode hr (hsd.id.trans he),
          List.filter_cons_of_pos (by simpa using hid)]
    · have hstep : ofEach operation update answer c id = (.ok [], c) := by
        rw [ofEach_eq (model.write_of_notMem h operation hid update), hmissing id (by simp) hid]
      obtain ⟨records, hrecords, hlisted⟩ := ih h
        (fun d hd hnamed => hs d hd ((h.hasIdIn_cons hid hd named).trans hnamed)) hmissing'
      refine ⟨records, ?_, ?_⟩
      · rw [writeEach_of_ok hstep, hrecords, h.rewrite_cons hid]
        rfl
      · rw [hlisted, List.filter_cons_of_neg (by simpa using hid)]

section Answered

variable (hrefused : ∀ fault r, answer (.error fault) = .ok r →
    ∃ name operation id, fault = .notFound name operation id)
  (hsettles : ∀ d d', Document.update d update = .ok d' →
    d' = f d ∧ (model.Decodes d' → Settles update f d))
  (h : c.HasIds ids) (hn : ids.Nodup)

include hrefused hsettles h hn

theorem settles_of_ofEach {d : Document} (hd : d ∈ c.documents) {id : ObjectId}
    (hid : d.id? = .ok id) {r : List Record} {c' : Collection}
    (hok : ofEach operation update answer c id = (.ok r, c')) :
    Settles update f d ∧ c' = c.rewrite [id] f := by
  cases hu : Document.update d update with
  | error fault =>
    rw [ofEach_eq (model.write_of_refused h hn hd hid operation hu)] at hok
    obtain ⟨_, _, _, hfault⟩ := hrefused _ r (Prod.mk.inj hok).1
    cases hfault
  | ok d' =>
    obtain ⟨rfl, hs⟩ := hsettles d d' hu
    rw [ofEach_eq (model.write_of_mem h hn hd hid operation hu)] at hok
    obtain ⟨hanswer, rfl⟩ := Prod.mk.inj hok
    cases hdecode : model.decode (f d) with
    | error fault =>
      rw [Model.decodeStored, hdecode] at hanswer
      obtain ⟨_, _, _, hfault⟩ := hrefused _ r hanswer
      cases hfault
    | ok e => exact ⟨hs ⟨e, hdecode⟩, rfl⟩

/-- A request that is answered for all of its records has written them. -/
theorem settles_of_writeEach {records : List Record} {c' : Collection}
    (hok : writeEach (ofEach operation update answer) named c = (.ok records, c')) :
    (∀ d ∈ c.documents, d.hasIdIn named = true → Settles update f d) ∧
      ∀ id ∈ named, id ∉ ids →
        ∃ r, answer (.error (.notFound model.name operation id)) = .ok r := by
  induction named generalizing c records with
  | nil =>
    refine ⟨?_, by simp⟩
    intro d _ hnamed
    obtain ⟨id, hid, -⟩ := Document.hasIdIn_iff.mp hnamed
    cases hid
  | cons id named ih =>
    obtain ⟨r, c₁, later, hstep, hlater, -⟩ := writeEach_cons_ok hok
    by_cases hid : id ∈ ids
    · obtain ⟨d, hd, he⟩ := h.exists_document hid
      obtain ⟨hs, rfl⟩ := settles_of_ofEach hrefused hsettles h hn hd he hstep
      have honly : ∀ other ∈ c.documents, other.hasIdIn [id] = true → other = d :=
        fun other hother hnamed => h.eq_of_hasIdIn hn hd he hother hnamed
      have hids : (c.rewrite [id] f).HasIds ids :=
        h.rewrite fun other hother hnamed => (honly other hother hnamed) ▸ hs.id
      obtain ⟨hdocuments, hmissing⟩ := ih hids hlater
      refine ⟨?_, ?_⟩
      · intro other hother hnamed
        cases hthis : other.hasIdIn [id] with
        | true => exact (honly other hother hthis) ▸ hs
        | false =>
          rw [Document.hasIdIn_cons, hthis, Bool.false_or] at hnamed
          have hkept : other ∈ (c.rewrite [id] f).documents :=
            List.mem_map.mpr ⟨other, hother, if_neg (by simp [hthis])⟩
          exact hdocuments other hkept hnamed
      · intro i hi hi'
        rcases List.mem_cons.mp hi with rfl | hi
        · exact absurd hid hi'
        · exact hmissing i hi hi'
    · rw [ofEach_eq (model.write_of_notMem h operation hid update)] at hstep
      obtain ⟨hr, rfl⟩ := Prod.mk.inj hstep
      obtain ⟨hdocuments, hmissing⟩ := ih h hlater
      refine ⟨?_, ?_⟩
      · intro d hd hnamed
        exact hdocuments d hd ((h.hasIdIn_cons hid hd named).symm.trans hnamed)
      · intro i hi hi'
        rcases List.mem_cons.mp hi with rfl | hi
        · exact ⟨r, hr⟩
        · exact hmissing i hi hi'

end Answered

end Each

section Reading

variable {c : Collection} {ids : List ObjectId} (h : c.HasIds ids) (path : FieldPath)

include h

theorem nestedValue_of_mem (hn : ids.Nodup) {d : Document} (hd : d ∈ c.documents) {id : ObjectId}
    (hid : d.id? = .ok id) : nestedValue c id path =
      match d.getPath path with
      | none => .error (.noValue path id)
      | some .null => .error (.noValue path id)
      | some v => .ok v := by
  obtain ⟨before, after, hs, -⟩ := h.splitFirst_of_mem hn hd hid
  rw [nestedValue, Collection.findOne, hs]
  rfl

theorem nestedValue_of_notMem {id : ObjectId} (hid : id ∉ ids) :
    nestedValue c id path = .error (.notFound model.name "get_nested_value" id) := by
  rw [nestedValue, Collection.findOne, h.splitFirst_of_notMem hid]
  rfl

end Reading

/-- A document that holds a value at a path when it was written there, and is still read. -/
def Takes (now : Int64) (path : FieldPath) (v : Value) (d : Document) : Prop :=
  (Document.setPath d path v).1 = none ∧ model.Decodes (written now path v d)

section NestedWrites

variable {path : FieldPath} {key : String} {rest : List String}
  (hpath : path.segments = key :: rest) (hid : key ≠ idKey) (hdate : key ≠ updatedAtKey)
  (now : Int64)

include hpath hid

theorem checkWritable_of_segments : checkWritable path = .ok () := by
  have hempty : path.isEmpty = false := by simp [FieldPath.isEmpty, hpath]
  have hwithin : path.isWithinIdentifier = false := by
    simp [FieldPath.isWithinIdentifier, hpath, hid]
  simp [checkWritable, hempty, hwithin]

theorem id?_written (v : Value) (d : Document) : (written now path v d).id? = d.id? := by
  refine Document.id?_congr ?_
  rw [written, Document.get_insert_of_ne _ _ (by decide),
    Document.get_setPath_of_ne d v (by simpa [hpath] using hid)]

theorem id?_withoutValue (d : Document) : (withoutValue now path d).id? = d.id? := by
  refine Document.id?_congr ?_
  rw [withoutValue, Document.get_insert_of_ne _ _ (by decide),
    Document.get_removePath_of_ne d (by simpa [hpath] using hid)]

include hdate

omit hid in
theorem getPath_written {v : Value} {d : Document} (h : (Document.setPath d path v).1 = none) :
    (written now path v d).getPath path = some v := by
  rw [written, Document.getPath_insert_of_ne _ _ (by simpa [hpath] using hdate),
    Document.getPath_setPath h]

omit hid in
theorem getPath_withoutValue (d : Document) : (withoutValue now path d).getPath path = none ∨
    (withoutValue now path d).getPath path = some .null := by
  rw [withoutValue, Document.getPath_insert_of_ne _ _ (by simpa [hpath] using hdate)]
  exact Document.getPath_removePath (by simp [hpath]) d

theorem settles_setUpdate {v : Value} {d : Document} (h : (Document.setPath d path v).1 = none)
    (hd : model.Decodes (written now path v d)) :
    Settles (setUpdate now path v) (written now path v) d := by
  have hother : path.segments.head? ≠ some updatedAtKey := by simpa [hpath] using hdate
  have hagain := Document.setPath_setPath_self h (.dateTime now) hother
  have hfixed : written now path v (written now path v d) = written now path v d := by
    rw [written, written, hagain]
    exact Document.insert_insert_self _ _ _ _
  refine ⟨?_, ?_, hfixed, ?_, hd⟩
  · exact (update_setUpdate_eq_ok_iff hpath hid hdate now v d _).mpr ⟨h, rfl⟩
  · exact (update_setUpdate_eq_ok_iff hpath hid hdate now v _ _).mpr
      ⟨congrArg Prod.fst hagain, hfixed.symm⟩
  · exact id?_written hpath hid now v d

theorem settles_unsetUpdate {d : Document} (hd : model.Decodes (withoutValue now path d)) :
    Settles (unsetUpdate now path) (withoutValue now path) d := by
  have hother : path.segments.head? ≠ some updatedAtKey := by simpa [hpath] using hdate
  have hagain := Document.removePath_insert_of_self
    (Document.removePath_removePath_self d path) (.dateTime now) hother
  have hfixed : withoutValue now path (withoutValue now path d) = withoutValue now path d := by
    rw [withoutValue, withoutValue, hagain]
    exact Document.insert_insert_self _ _ _ _
  refine ⟨update_unsetUpdate now path d, ?_, hfixed, ?_, hd⟩
  · rw [update_unsetUpdate, hfixed]
  · exact id?_withoutValue hpath hid now d

/-- A sound document takes what may be written at the path, and is sound afterwards. -/
theorem takes_of_allowsSet {v : Value} {d : Document} (hd : soundSchema.Holds d)
    (hallows : AllowsSet v path) (hset : (Document.setPath d path v).1 = none) :
    Takes now path v d ∧ soundSchema.Holds (written now path v d) := by
  have hupdate := (update_setUpdate_eq_ok_iff hpath hid hdate now v d _).mpr ⟨hset, rfl⟩
  have hholds := holds_setUpdate hd hallows hupdate
  exact ⟨⟨hset, keeps.decodes _ hholds⟩, hholds⟩

omit hdate in
theorem updateNested_eq (c : Collection) (named : List ObjectId) (v : Value) :
    updateNested c now named path v = writeEach
      (ofEach "update_nested_value" (setUpdate now path v) (Except.map ([·]))) named c := by
  rw [updateNested, checkWritable_of_segments hpath hid]
  rfl

omit hdate in
theorem deleteNested_eq (c : Collection) (named : List ObjectId) :
    deleteNested c now named path = writeEach
      (ofEach "delete_nested_value" (unsetUpdate now path) skipMissing) named c := by
  rw [deleteNested, checkWritable_of_segments hpath hid]
  rfl

section Served

variable {c : Collection} {ids named : List ObjectId} (h : c.HasIds ids) (hn : ids.Nodup)
  {records : List Record} {c' : Collection}

include h hn

theorem updateNested_of_takes {v : Value} (hnamed : ∀ id ∈ named, id ∈ ids)
    (ht : ∀ d ∈ c.documents, d.hasIdIn named = true → Takes now path v d) :
    ∃ records, updateNested c now named path v =
        (.ok records, c.rewrite named (written now path v)) ∧ records.map Entity.id = named := by
  have hsettles : ∀ d ∈ c.documents, d.hasIdIn named = true →
      Settles (setUpdate now path v) (written now path v) d := by
    intro d hd hthis
    obtain ⟨hset, hdecodes⟩ := ht d hd hthis
    exact settles_setUpdate hpath hid hdate now hset hdecodes
  have hanswer (r : Record) : Except.map ([·]) (.ok r : Except ServiceFault Record) = .ok [r] := rfl
  have hmissing : ∀ id ∈ named, id ∉ ids → Except.map ([·]) (.error (.notFound model.name
      "update_nested_value" id) : Except ServiceFault Record) = .ok [] :=
    fun id hid hmissing => absurd (hnamed id hid) hmissing
  obtain ⟨records, hrecords, hlisted⟩ := writeEach_of_settles hanswer h hn hsettles hmissing
  refine ⟨records, (updateNested_eq hpath hid now c named v).trans hrecords, ?_⟩
  rw [hlisted, List.filter_eq_self.mpr (by simpa using hnamed)]

theorem takes_of_updateNested {v : Value}
    (hok : updateNested c now named path v = (.ok records, c')) :
    (∀ id ∈ named, id ∈ ids) ∧
      ∀ d ∈ c.documents, d.hasIdIn named = true → Takes now path v d := by
  have hupdate (d d' : Document) (hu : Document.update d (setUpdate now path v) = .ok d') :
      d' = written now path v d ∧ (model.Decodes d' →
        Settles (setUpdate now path v) (written now path v) d) := by
    obtain ⟨hset, rfl⟩ := (update_setUpdate_eq_ok_iff hpath hid hdate now v d d').mp hu
    exact ⟨rfl, settles_setUpdate hpath hid hdate now hset⟩
  have hrefused (fault : ServiceFault) (r : List Record)
      (hr : Except.map ([·]) (.error fault : Except ServiceFault Record) = .ok r) :
      ∃ name operation id, fault = .notFound name operation id := by
    cases hr
  rw [updateNested_eq hpath hid] at hok
  obtain ⟨hsettles, hmissing⟩ := settles_of_writeEach hrefused hupdate h hn hok
  refine ⟨?_, ?_⟩
  · intro id hnamed
    refine Classical.byContradiction fun hid => ?_
    obtain ⟨r, hr⟩ := hmissing id hnamed hid
    cases hr
  · intro d hd hnamed
    have hs := hsettles d hd hnamed
    exact ⟨((update_setUpdate_eq_ok_iff hpath hid hdate now v d _).mp hs.first).1, hs.decodes⟩

theorem deleteNested_of_decodes
    (hd : ∀ d ∈ c.documents, d.hasIdIn named = true → model.Decodes (withoutValue now path d)) :
    ∃ records, deleteNested c now named path =
        (.ok records, c.rewrite named (withoutValue now path)) ∧
      records.map Entity.id = named.filter (· ∈ ids) := by
  have hsettles : ∀ d ∈ c.documents, d.hasIdIn named = true →
      Settles (unsetUpdate now path) (withoutValue now path) d :=
    fun d hmem hthis => settles_unsetUpdate hpath hid hdate now (hd d hmem hthis)
  have hanswer (r : Record) : skipMissing (.ok r) = .ok [r] := rfl
  have hmissing : ∀ id ∈ named, id ∉ ids →
      skipMissing (.error (.notFound model.name "delete_nested_value" id)) = .ok [] :=
    fun _ _ _ => rfl
  rw [deleteNested_eq hpath hid]
  exact writeEach_of_settles hanswer h hn hsettles hmissing

theorem decodes_of_deleteNested (hok : deleteNested c now named path = (.ok records, c')) :
    ∀ d ∈ c.documents, d.hasIdIn named = true → model.Decodes (withoutValue now path d) := by
  have hupdate (d d' : Document) (hu : Document.update d (unsetUpdate now path) = .ok d') :
      d' = withoutValue now path d ∧ (model.Decodes d' →
        Settles (unsetUpdate now path) (withoutValue now path) d) := by
    rw [update_unsetUpdate] at hu
    obtain rfl := Except.ok.inj hu
    exact ⟨rfl, settles_unsetUpdate hpath hid hdate now⟩
  have hrefused (fault : ServiceFault) (r : List Record) (hr : skipMissing (.error fault) = .ok r) :
      ∃ name operation id, fault = .notFound name operation id := by
    cases fault with
    | notFound name operation id => exact ⟨name, operation, id, rfl⟩
    | _ => cases hr
  rw [deleteNested_eq hpath hid] at hok
  obtain ⟨hsettles, -⟩ := settles_of_writeEach hrefused hupdate h hn hok
  exact fun d hd hnamed => (hsettles d hd hnamed).decodes

theorem updateNested_of_missing {before after : List ObjectId} {missing : ObjectId} {v : Value}
    (hbefore : ∀ id ∈ before, id ∈ ids) (hmissing : missing ∉ ids)
    (ht : ∀ d ∈ c.documents, d.hasIdIn before = true → Takes now path v d) :
    updateNested c now (before ++ missing :: after) path v =
      (.error (.notFound model.name "update_nested_value" missing),
        c.rewrite before (written now path v)) := by
  obtain ⟨records, hok, -⟩ := updateNested_of_takes hpath hid hdate now h hn hbefore ht
  have hids : (c.rewrite before (written now path v)).HasIds ids :=
    h.rewrite fun d _ _ => id?_written hpath hid now v d
  have hrefused : ofEach "update_nested_value" (setUpdate now path v) (Except.map ([·]))
      (c.rewrite before (written now path v)) missing =
        (.error (.notFound model.name "update_nested_value" missing),
          c.rewrite before (written now path v)) :=
    ofEach_eq (model.write_of_notMem hids "update_nested_value" hmissing _)
  rw [updateNested_eq hpath hid] at hok ⊢
  rw [writeEach_append hok, writeEach_of_error hrefused]
  rfl

/-- What is written can be read, and null as nothing. -/
theorem nestedValue_written {v : Value} {d : Document} {id : ObjectId} (hd : d ∈ c.documents)
    (he : d.id? = .ok id) (hthis : id ∈ named) (hset : (Document.setPath d path v).1 = none) :
    (v ≠ .null → nestedValue (c.rewrite named (written now path v)) id path = .ok v) ∧
      (v = .null → IsNotFound (nestedValue (c.rewrite named (written now path v)) id path)) := by
  have hanswer := nestedValue_of_mem (h.rewrite fun d _ _ => id?_written hpath hid now v d) path
    hn (Collection.mem_rewrite hd he hthis _) ((id?_written hpath hid now v d).trans he)
  rw [getPath_written hpath hdate now hset] at hanswer
  refine ⟨fun hv => hanswer.trans ?_, ?_⟩
  · cases v with
    | null => exact absurd rfl hv
    | _ => rfl
  · rintro rfl
    exact ⟨_, hanswer, rfl⟩

theorem nestedValue_withoutValue {id : ObjectId} (hthis : id ∈ named) :
    IsNotFound (nestedValue (c.rewrite named (withoutValue now path)) id path) := by
  have hids : (c.rewrite named (withoutValue now path)).HasIds ids :=
    h.rewrite fun d _ _ => id?_withoutValue hpath hid now d
  by_cases hstored : id ∈ ids
  · obtain ⟨d, hd, he⟩ := h.exists_document hstored
    have hanswer := nestedValue_of_mem hids path hn (Collection.mem_rewrite hd he hthis _)
      ((id?_withoutValue hpath hid now d).trans he)
    refine ⟨.noValue path id, hanswer.trans ?_, rfl⟩
    rcases getPath_withoutValue hpath hdate now d with hnone | hnull
    · rw [hnone]
    · rw [hnull]
  · exact ⟨_, nestedValue_of_notMem hids path hstored, rfl⟩

end Served

end NestedWrites

/-- A request that is answered in one way where a condition holds, and only there. -/
theorem answered_iff {p : Prop} {q : List Record → Prop} {left : Collection}
    {served : Except ServiceFault (List Record) × Collection}
    (hneeded : ∀ records c', served = (.ok records, c') → p)
    (hanswered : p → ∃ records, served = (.ok records, left) ∧ q records) :
    ((∃ records c', served = (.ok records, c')) ↔ p) ∧
      ∀ records c', served = (.ok records, c') → p ∧ q records ∧ c' = left := by
  refine ⟨⟨fun ⟨records, c', hok⟩ => hneeded records c' hok, ?_⟩, ?_⟩
  · intro hp
    obtain ⟨records, hok, -⟩ := hanswered hp
    exact ⟨records, left, hok⟩
  · intro records c' hok
    have hp := hneeded records c' hok
    obtain ⟨records', hok', hq⟩ := hanswered hp
    obtain ⟨hrecords, rfl⟩ := Prod.mk.inj (hok.symm.trans hok')
    obtain rfl := Except.ok.inj hrecords
    exact ⟨hp, hq, rfl⟩

/-- Writes and removals of one value are exact over the whole list of the records that are named. A
write is answered exactly if every one of them is stored and takes the value, each is answered once
for each time it is named, and has the value afterwards. A record that is not stored ends a write as
not found, when those before it have the value already. A removal is answered exactly if every one
of them that is stored is still read without the value, leaves out those that are not stored, and
no record that is named has a value at the path afterwards. Beside the path and the time of the
change nothing in a document is written, and nothing in the other documents. -/
theorem nested_writes_exact {c : Collection} {ids : List ObjectId} (h : c.HasIds ids)
    (hn : ids.Nodup) (now : Int64) {path : FieldPath} {key : String} {rest : List String}
    (hpath : path.segments = key :: rest) (hid : key ≠ idKey) (hdate : key ≠ updatedAtKey) :
    (∀ named v,
      ((∃ records c', updateNested c now named path v = (.ok records, c')) ↔
        (∀ id ∈ named, id ∈ ids) ∧
          ∀ d ∈ c.documents, d.hasIdIn named = true → Takes now path v d) ∧
      ∀ records c', updateNested c now named path v = (.ok records, c') →
        records.map Entity.id = named ∧ c' = c.rewrite named (written now path v) ∧
        ∀ id ∈ named, (v ≠ .null → nestedValue c' id path = .ok v) ∧
          (v = .null → IsNotFound (nestedValue c' id path))) ∧
    (∀ before missing after v, (∀ id ∈ before, id ∈ ids) → missing ∉ ids →
      (∀ d ∈ c.documents, d.hasIdIn before = true → Takes now path v d) →
      ∃ c', IsNotFound (updateNested c now (before ++ missing :: after) path v).1 ∧
        (updateNested c now (before ++ missing :: after) path v).2 = c' ∧
        c' = c.rewrite before (written now path v) ∧
        ∀ id ∈ before, ∃ d ∈ c'.documents, d.id? = .ok id ∧ d.getPath path = some v) ∧
    ∀ named,
      ((∃ records c', deleteNested c now named path = (.ok records, c')) ↔
        ∀ d ∈ c.documents, d.hasIdIn named = true → model.Decodes (withoutValue now path d)) ∧
      ∀ records c', deleteNested c now named path = (.ok records, c') →
        records.map Entity.id = named.filter (· ∈ ids) ∧
        c' = c.rewrite named (withoutValue now path) ∧
        ∀ id ∈ named, IsNotFound (nestedValue c' id path) := by
  refine ⟨?_, ?_, ?_⟩
  · intro named v
    have hneeded (records : List Record) (c' : Collection)
        (hok : updateNested c now named path v = (.ok records, c')) :=
      takes_of_updateNested hpath hid hdate now h hn hok
    obtain ⟨hiff, hanswers⟩ := answered_iff hneeded
      fun ht => updateNested_of_takes hpath hid hdate now h hn ht.1 ht.2
    refine ⟨hiff, fun records c' hok => ?_⟩
    obtain ⟨⟨hnamed, ht⟩, hlisted, rfl⟩ := hanswers records c' hok
    refine ⟨hlisted, rfl, ?_⟩
    intro id hthis
    obtain ⟨d, hd, he⟩ := h.exists_document (hnamed id hthis)
    obtain ⟨hset, -⟩ := ht d hd (Document.hasIdIn_iff.mpr ⟨id, hthis, he⟩)
    exact nestedValue_written hpath hid hdate now h hn hd he hthis hset
  · intro before missing after v hbefore hmissing ht
    rw [updateNested_of_missing hpath hid hdate now h hn hbefore hmissing ht]
    refine ⟨_, ⟨_, rfl, rfl⟩, rfl, rfl, ?_⟩
    intro id hthis
    obtain ⟨d, hd, he⟩ := h.exists_document (hbefore id hthis)
    obtain ⟨hset, -⟩ := ht d hd (Document.hasIdIn_iff.mpr ⟨id, hthis, he⟩)
    exact ⟨_, Collection.mem_rewrite hd he hthis _, (id?_written hpath hid now v d).trans he,
      getPath_written hpath hdate now hset⟩
  · intro named
    have hneeded (records : List Record) (c' : Collection)
        (hok : deleteNested c now named path = (.ok records, c')) :=
      decodes_of_deleteNested hpath hid hdate now h hn hok
    obtain ⟨hiff, hanswers⟩ := answered_iff hneeded
      fun hd => deleteNested_of_decodes hpath hid hdate now h hn hd
    refine ⟨hiff, fun records c' hok => ?_⟩
    obtain ⟨-, hlisted, rfl⟩ := hanswers records c' hok
    exact ⟨hlisted, rfl, fun id hthis => nestedValue_withoutValue hpath hid hdate now h hn hthis⟩

/-- One photo is named twice. One that is not stored ends a write for the other, and is left out by
a removal. -/
theorem nested_writes_exact_photos :
    let id (n : UInt8) : ObjectId := ⟨List.replicate 12 n, List.length_replicate⟩
    let photo (n : UInt8) : Document :=
      model.newDocument (id n) 0 (.embedded "photo" (.document [("km", .int64 7)]))
    let c : Collection := ⟨"records", [photo 0, photo 1]⟩
    let path : FieldPath := .ofString "content.data.rows[2].size"
    let km : FieldPath := .ofString "content.data.km"
    (∃ records c', updateNested c 1 [id 1, id 0, id 1] path (.int32 120) = (.ok records, c') ∧
        records.map Entity.id = [id 1, id 0, id 1] ∧
        nestedValue c' (id 0) path = .ok (.int32 120)) ∧
      (∃ c', IsNotFound (updateNested c 1 [id 1, id 1, id 2, id 0] path (.int32 120)).1 ∧
        (updateNested c 1 [id 1, id 1, id 2, id 0] path (.int32 120)).2 = c' ∧
        ∃ d ∈ c'.documents, d.id? = .ok (id 1) ∧ d.getPath path = some (.int32 120)) ∧
      ∃ records c', deleteNested c 1 [id 1, id 2, id 1] km = (.ok records, c') ∧
        records.map Entity.id = [id 1, id 1] ∧ IsNotFound (nestedValue c' (id 1) km) ∧
        photo 0 ∈ c'.documents := by
  intro id photo c path km
  have hpath : path.segments = ["content", "data", "rows", "2", "size"] := by decide +kernel
  have hkm : km.segments = ["content", "data", "km"] := by decide +kernel
  have hids : c.HasIds [id 0, id 1] := rfl
  have hphoto : ∀ d ∈ c.documents, soundSchema.Holds d := by
    have hbody : (RecordBody.embedded "photo" (.document [("km", .int64 7)])).IsReadable := by
      rintro data ⟨⟩
      rfl
    intro d hd
    simp only [c, List.mem_cons, List.not_mem_nil, or_false] at hd
    rcases hd with rfl | rfl
    · exact keeps.holds_newDocument hbody (id 0) 0
    · exact keeps.holds_newDocument hbody (id 1) 0
  have htakes : ∀ d ∈ c.documents, Takes 1 path (.int32 120) d := by
    have hallows : AllowsSet (.int32 120) path := by
      rw [AllowsSet, hpath]
      exact ⟨rfl, by decide⟩
    have hset : ∀ d ∈ c.documents, (Document.setPath d path (.int32 120)).1 = none := by
      decide +kernel
    exact fun d hd => (takes_of_allowsSet hpath (by decide) (by decide) 1 (hphoto d hd) hallows
      (hset d hd)).1
  have hdecodes : ∀ d ∈ c.documents, model.Decodes (withoutValue 1 km d) := by
    have hallows : AllowsUnset km := by
      rw [AllowsUnset, hkm]
      exact trivial
    exact fun d hd => keeps.decodes _
      (holds_unsetUpdate (hphoto d hd) hallows (update_unsetUpdate 1 km d))
  obtain ⟨hwrites, hmissing, -⟩ :=
    nested_writes_exact hids (by decide) 1 hpath (by decide) (by decide)
  obtain ⟨-, -, hremovals⟩ := nested_writes_exact hids (by decide) 1 hkm (by decide) (by decide)
  refine ⟨?_, ?_, ?_⟩
  · obtain ⟨hiff, hanswers⟩ := hwrites [id 1, id 0, id 1] (.int32 120)
    obtain ⟨records, c', hok⟩ := hiff.mpr ⟨by decide, fun d hd _ => htakes d hd⟩
    obtain ⟨hlisted, -, hvalues⟩ := hanswers records c' hok
    exact ⟨records, c', hok, hlisted, (hvalues (id 0) (by decide)).1 (by simp)⟩
  · obtain ⟨c', hfault, hleft, -, hwritten⟩ := hmissing [id 1, id 1] (id 2) [id 0] (.int32 120)
      (by decide) (by decide) (fun d hd _ => htakes d hd)
    exact ⟨c', hfault, hleft, hwritten (id 1) (by decide)⟩
  · obtain ⟨hiff, hanswers⟩ := hremovals [id 1, id 2, id 1]
    obtain ⟨records, c', hok⟩ := hiff.mpr fun d hd _ => hdecodes d hd
    obtain ⟨hlisted, rfl, hvalues⟩ := hanswers records c' hok
    exact ⟨records, _, hok, hlisted, hvalues (id 1) (by decide), List.mem_cons_self⟩

end Record

end DocumentStore
