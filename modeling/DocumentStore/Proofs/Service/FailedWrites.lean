import DocumentStore.Proofs.Entity.Amended
import DocumentStore.Proofs.Service.Decoding

/-! Creations and changes that fail. One that is refused leaves the collection as it was. One that
is answered by a fault of decoding has been made: what it wrote stays, and it is the written
document that cannot be read. -/

namespace DocumentStore

namespace Model

variable {β δ : Type} {m : Model β δ} {c c' : Collection} {fault : ServiceFault}

theorem Decodes.stored_ne_error {d : Document} (h : m.Decodes d) (fault : ServiceFault) :
    m.decodeStored d ≠ .error fault := by
  obtain ⟨e, he⟩ := h
  rw [m.decodeStored_ok_iff.mpr he]
  simp

/-- An answer that was read from a document fails with the code of decoding. -/
theorem code_of_decodeStored {d : Document} (h : m.decodeStored d = .error fault) :
    fault.report.code = .deserializationError := by
  obtain ⟨cause, -, rfl⟩ := m.decodeStored_error_iff.mp h
  rfl

/-- What is left by a creation that fails. -/
theorem create_error (hm : m.SparesId) {fresh : ObjectId} {now : Int64} {body : β}
    (h : m.create c fresh now body = (.error fault, c')) :
    fault.report.code ≠ .deserializationError ∧ c' = c ∨
    fault.report.code = .deserializationError ∧
      c' = { c with documents := c.documents ++ [m.newDocument fresh now body] } ∧
      ¬ m.Decodes (m.newDocument fresh now body) := by
  rcases m.create_cases hm c fresh now body with ⟨refusal, hrefusal, hcreate⟩ | hcreate
  · obtain ⟨⟨⟩, rfl⟩ := Prod.mk.inj (hcreate.symm.trans h)
    exact .inl ⟨ServiceFault.code_ne_deserializationError_iff.mpr hrefusal, rfl⟩
  · obtain ⟨hstored, rfl⟩ := Prod.mk.inj (hcreate.symm.trans h)
    exact .inr ⟨code_of_decodeStored hstored, rfl, fun hd => hd.stored_ne_error fault hstored⟩

theorem WritesFields.update_cases (hm : m.WritesFields) (c : Collection) (now : Int64)
    (id : ObjectId) (q : δ) :
    (∃ fault, fault.isDecode = false ∧ m.update c now id q = (.error fault, c)) ∨
    ∃ before found after,
      Collection.splitFirst (Query.byId id) c.documents = .ok (some (before, found, after)) ∧
      m.update c now id q = (m.decodeStored (m.changed now q found),
        { c with documents := before ++ m.changed now q found :: after }) := by
  cases hs : Collection.splitFirst (Query.byId id) c.documents with
  | error fault => exact .inl ⟨.query fault, rfl, m.write_of_error hs⟩
  | ok split =>
    cases split with
    | none => exact .inl ⟨.notFound m.name "update" id, rfl, m.write_of_none hs⟩
    | some parts =>
      obtain ⟨before, found, after⟩ := parts
      have hchanged := hm.update_changeUpdate q now found
      exact .inr ⟨before, found, after, rfl, m.write_of_split hs hchanged⟩

/-- What is left by a change that fails. -/
theorem WritesFields.update_error (hm : m.WritesFields) {now : Int64} {id : ObjectId} {q : δ}
    (h : m.update c now id q = (.error fault, c')) :
    fault.report.code ≠ .deserializationError ∧ c' = c ∨
    fault.report.code = .deserializationError ∧ ∃ before found after,
      Collection.splitFirst (Query.byId id) c.documents = .ok (some (before, found, after)) ∧
      c' = { c with documents := before ++ m.changed now q found :: after } ∧
      ¬ m.Decodes (m.changed now q found) := by
  rcases hm.update_cases c now id q with
    ⟨refusal, hrefusal, hupdate⟩ | ⟨before, found, after, hs, hupdate⟩
  · obtain ⟨⟨⟩, rfl⟩ := Prod.mk.inj (hupdate.symm.trans h)
    exact .inl ⟨ServiceFault.code_ne_deserializationError_iff.mpr hrefusal, rfl⟩
  · obtain ⟨hstored, rfl⟩ := Prod.mk.inj (hupdate.symm.trans h)
    exact .inr ⟨code_of_decodeStored hstored, before, found, after, hs, rfl,
      fun hd => hd.stored_ne_error fault hstored⟩

/-- Creations and changes that fail, for the bodies and changes that are read back and for all. -/
structure FailedWrites (m : Model β δ) (bodies : β → Prop) (changes : δ → Prop) : Prop where
  create : ∀ (c c' : Collection) (fresh : ObjectId) (now : Int64) (body : β) (fault : ServiceFault),
    m.create c fresh now body = (.error fault, c') →
      (fault.report.code ≠ .deserializationError → c' = c) ∧
      (fault.report.code = .deserializationError →
        c' = { c with documents := c.documents ++ [m.newDocument fresh now body] } ∧
        ∀ e, m.decode (m.newDocument fresh now body) ≠ .ok e) ∧
      (bodies body → c' = c)
  update : ∀ (c c' : Collection) (now : Int64) (id : ObjectId) (q : δ) (fault : ServiceFault),
    m.update c now id q = (.error fault, c') →
      (fault.report.code ≠ .deserializationError → c' = c) ∧
      (fault.report.code = .deserializationError → ∃ before found after,
        c.documents = before ++ found :: after ∧
        (∀ d ∈ before, d.matches (Query.byId id) = .ok false) ∧
        found.matches (Query.byId id) = .ok true ∧
        c' = { c with documents := before ++ m.changed now q found :: after } ∧
        ∀ e, m.decode (m.changed now q found) ≠ .ok e) ∧
      (changes q →
        (∀ d ∈ c.documents, d.matches (Query.byId id) = .ok true → ∃ e, m.decode d = .ok e) →
        c' = c)

/-- A creation of what is read back is refused or does not fail, and so is a change of documents
that can be read. -/
theorem Keeps.failedWrites {σ : Schema} {bodies : β → Prop} {changes : δ → Prop}
    (hk : m.Keeps σ bodies changes) (hid : m.SparesId) (hw : m.WritesFields)
    (hholds : ∀ d, m.Decodes d → σ.Holds d) : m.FailedWrites bodies changes where
  create := by
    intro c c' fresh now body fault h
    rcases create_error hid h with ⟨hcode, rfl⟩ | ⟨hcode, hc', hunread⟩
    · exact ⟨fun _ => rfl, fun h => absurd h hcode, fun _ => rfl⟩
    · refine ⟨fun h => absurd hcode h, fun _ => ⟨hc', fun e he => hunread ⟨e, he⟩⟩, ?_⟩
      exact fun hbody => absurd (hk.decodes _ (hk.holds_newDocument hbody fresh now)) hunread
  update := by
    intro c c' now id q fault h
    rcases hw.update_error h with ⟨hcode, rfl⟩ | ⟨hcode, before, found, after, hs, hc', hunread⟩
    · exact ⟨fun _ => rfl, fun h => absurd h hcode, fun _ _ => rfl⟩
    · obtain ⟨hds, hbefore, hfound⟩ := Collection.splitFirst_eq_some_iff.mp hs
      refine ⟨fun h => absurd hcode h, fun _ => ⟨before, found, after, hds, hbefore, hfound, hc',
        fun e he => hunread ⟨e, he⟩⟩, fun hq hread => ?_⟩
      have hreads : m.Decodes found := hread found (by simp [hds]) hfound
      have hholds' : σ.Holds (m.changed now q found) :=
        hk.holds_changeUpdate hq (hholds found hreads) (hw.update_changeUpdate q now found)
      exact absurd (hk.decodes _ hholds') hunread

end Model

namespace Datastore

/-- A creation or a change that fails leaves the collection as it was unless it is answered by a
fault of decoding. It is answered by one only after it was made, and never if what it writes is read
back and, for a change, the documents of that identifier can be read. -/
theorem failed_writes_leave :
    Record.model.FailedWrites RecordBody.IsReadable RecordChange.IsReadable ∧
      Journey.model.FailedWrites JourneyBody.IsReadable JourneyChange.IsReadable ∧
      Trace.model.FailedWrites TraceBody.IsReadable TraceChange.IsReadable := by
  have hrecords : Record.model.Keeps Record.schema RecordBody.IsReadable RecordChange.IsReadable :=
    Record.keeps.weaken (fun _ _ h => h.1) rfl (fun d h => (Record.decodes_iff d).mpr h)
      (fun _ h => h) fun _ h => h
  exact ⟨hrecords.failedWrites Record.sparesId Record.writesFields
      fun d => (Record.decodes_iff d).mp,
    Journey.keeps.failedWrites Journey.sparesId Journey.writesFields
      fun d => (Journey.decodes_iff d).mp,
    Trace.keeps.failedWrites Trace.sparesId Trace.writesFields
      fun d => (Trace.decodes_iff d).mp⟩

/-- In a collection that holds a trace without an author, a change of another trace and of this
one. -/
theorem failed_writes_leave_sky :
    let id (n : UInt8) : ObjectId := ⟨List.replicate 12 n, List.length_replicate⟩
    let d : Document := [(idKey, .objectId (id 0)), ("title", .string "sea")]
    let c : Collection := ⟨"traces", [d]⟩
    let sky : TraceChange := { title := some "sky" }
    (∃ fault c', Trace.model.update c 1 (id 1) sky = (.error fault, c') ∧ c' = c) ∧
      ∃ fault c', Trace.model.update c 1 (id 0) sky = (.error fault, c') ∧
        c'.documents = [Trace.model.changed 1 sky d] ∧
        ∀ e, Trace.model.decode (Trace.model.changed 1 sky d) ≠ .ok e := by
  intro id d c sky
  have hid : Document.id? d = .ok (id 0) := rfl
  have hother : Collection.splitFirst (Query.byId (id 1)) c.documents = .ok none := by
    rw [Collection.splitFirst, Query.matches_byId hid]
    rfl
  have hfound : Collection.splitFirst (Query.byId (id 0)) c.documents = .ok (some ([], d, [])) := by
    rw [Collection.splitFirst, Query.matches_byId hid]
    rfl
  have hrefused : Trace.model.update c 1 (id 1) sky =
      (.error (.notFound "Trace" "update" (id 1)), c) :=
    Trace.model.write_of_none hother
  have hmade : Trace.model.update c 1 (id 0) sky = (.error (.decode (.missing "author")),
      { c with documents := [Trace.model.changed 1 sky d] }) :=
    Trace.model.write_of_split hfound (Trace.writesFields.update_changeUpdate sky 1 d)
  obtain ⟨-, -, htraces⟩ := failed_writes_leave
  obtain ⟨hleft, -⟩ := htraces.update c c 1 (id 1) sky _ hrefused
  obtain ⟨-, hwritten, -⟩ := htraces.update c _ 1 (id 0) sky _ hmade
  obtain ⟨before, found, after, hds, -, -, hc', hunread⟩ := hwritten rfl
  obtain ⟨rfl, rfl, rfl⟩ : before = [] ∧ found = d ∧ after = [] := by
    cases before with
    | nil =>
      obtain ⟨rfl, rfl⟩ := List.cons.inj hds
      exact ⟨rfl, rfl, rfl⟩
    | cons other before => simp [c] at hds
  refine ⟨⟨_, c, hrefused, hleft (by decide)⟩, _, _, hmade, ?_, hunread⟩
  exact congrArg Collection.documents hc'

/-- A new trace whose filters are not valid, and a change of a trace without an author. -/
theorem failed_writes_stay :
    let id : ObjectId := ⟨List.replicate 12 0, List.length_replicate⟩
    let nothing : TraceBody := .new "sea" "ann" ⟨[.concatenation ⟨.and, []⟩]⟩
    let trace (title : String) (dates : Document) : Document :=
      (idKey, .objectId id) :: ("title", .string title) :: dates
    Trace.model.create ⟨"traces", []⟩ id 0 nothing =
        (.error (.decode (.filter (.emptyConcatenation .and))),
          ⟨"traces", [Trace.model.newDocument id 0 nothing]⟩) ∧
      Trace.model.update ⟨"traces", [trace "sea" []]⟩ 1 id { title := some "sky" } =
        (.error (.decode (.missing "author")),
          ⟨"traces", [trace "sky" [(updatedAtKey, .dateTime 1)]]⟩) := by
  intro id nothing trace
  refine ⟨rfl, ?_⟩
  have hfind : Collection.splitFirst (Query.byId id) [trace "sea" []] =
      .ok (some ([], trace "sea" [], [])) := by
    have hid : Document.id? (trace "sea" []) = .ok id := rfl
    rw [Collection.splitFirst, Query.matches_byId hid]
    rfl
  exact Trace.model.write_of_split (c := ⟨"traces", _⟩) hfind
    (Trace.writesFields.update_changeUpdate { title := some "sky" } 1 _)

end Datastore

end DocumentStore
