import DocumentStore.Proofs.Entity.Amended
import DocumentStore.Proofs.Service.NestedValues
import DocumentStore.Proofs.Service.Saved

/-! Creations, changes and what is answered afterwards agree on every field. To its callers a model
is a map from identifiers to entities: a creation adds one with the fields that were given, a change
replaces the fields that it has, and nothing else becomes of any entity until it is removed. -/

namespace DocumentStore

namespace Effect

theorem nodup_leaves {ids : List ObjectId} (hn : ids.Nodup) {e : Effect}
    (hfresh : ∀ id, e = .adds id → id ∉ ids) : (e.leaves ids).Nodup := by
  cases e with
  | adds id =>
    have hnew : id ∉ ids := hfresh id rfl
    refine List.nodup_append.mpr ⟨hn, List.nodup_singleton id, ?_⟩
    rintro a ha b hb rfl
    exact hnew (List.mem_singleton.mp hb ▸ ha)
  | keeps => exact hn
  | removes named => exact hn.filter _

end Effect

namespace Request

variable {β δ : Type}

/-- What a request makes of the entity with an identifier, or of there being none. -/
def outcome (amend : β → δ → β) (id : ObjectId) (e : Option (Entity β)) :
    Request β δ → Option (Entity β)
  | create fresh now body => if id = fresh then some ⟨fresh, body, now, now⟩ else e
  | update now named q => if id = named then e.map (fun e => e.amended amend now q) else e
  | delete named => if id = named then none else e
  | deleteMany named => if id ∈ named then none else e

/-- The identifiers that requests add. -/
def added (rs : List (Request β δ)) : List ObjectId :=
  (rs.map effect).filterMap Effect.added?

theorem added_cons (r : Request β δ) (rs : List (Request β δ)) :
    added (r :: rs) = r.effect.added?.toList ++ added rs :=
  Effect.filterMap_added_cons _ _

end Request

namespace Model

variable {β δ : Type} {m : Model β δ}

/-- What is stored after requests that are served in turn. -/
def run (m : Model β δ) (c : Collection) (rs : List (Request β δ)) : Collection :=
  rs.foldl (fun c r => (m.serve c r).2) c

/-- The entity that is answered for an identifier, or that none is. -/
def Finds (m : Model β δ) (c : Collection) (id : ObjectId) : Option (Entity β) → Prop
  | some e => m.get c id = .ok e
  | none => m.get c id = .error (.notFound m.name "get" id)

theorem Finds.congr {c c' : Collection} {id : ObjectId} {x : Option (Entity β)}
    (hx : m.Finds c id x) (h : m.get c' id = m.get c id) : m.Finds c' id x := by
  cases x <;> exact h.trans hx

section Get

variable {c c' : Collection} {ids ids' : List ObjectId} {id : ObjectId}

theorem get_eq_ok_iff {e : Entity β} : m.get c id = .ok e ↔ ∃ before d after,
    Collection.splitFirst (Query.byId id) c.documents = .ok (some (before, d, after)) ∧
      m.decode d = .ok e := by
  constructor
  · intro h
    cases hs : Collection.splitFirst (Query.byId id) c.documents with
    | error fault => simp [get, Collection.findOne, hs, bind, Except.bind] at h
    | ok split =>
      cases split with
      | none =>
        rw [m.get_of_none hs] at h
        cases h
      | some parts =>
        obtain ⟨before, d, after⟩ := parts
        rw [m.get_of_some hs] at h
        exact ⟨before, d, after, rfl, m.decodeStored_ok_iff.mp h⟩
  · rintro ⟨before, d, after, hs, hd⟩
    exact (m.get_of_some hs).trans (m.decodeStored_ok_iff.mpr hd)

theorem get_of_mem (h : c.HasIds ids) (hn : ids.Nodup) {d : Document} (hd : d ∈ c.documents)
    (hid : d.id? = .ok id) : m.get c id = m.decodeStored d := by
  obtain ⟨before, after, hs, -⟩ := h.splitFirst_of_mem hn hd hid
  exact m.get_of_some hs

theorem get_of_notMem (h : c.HasIds ids) (hid : id ∉ ids) :
    m.get c id = .error (.notFound m.name "get" id) :=
  m.get_of_none (h.splitFirst_of_notMem hid)

theorem Finds.notMem (h : c.HasIds ids) (hn : ids.Nodup) (hx : m.Finds c id none) : id ∉ ids := by
  intro hid
  obtain ⟨d, hd, he⟩ := h.exists_document hid
  have hget : m.get c id = .error (.notFound m.name "get" id) := hx
  rw [get_of_mem h hn hd he, decodeStored] at hget
  cases hdecode : m.decode d <;> simp [hdecode, Except.mapError] at hget

/-- What is answered depends on the documents with the identifier alone. -/
theorem get_congr (h : c.HasIds ids) (hn : ids.Nodup) (h' : c'.HasIds ids') (hn' : ids'.Nodup)
    (hsame : ∀ d, d.id? = .ok id → (d ∈ c'.documents ↔ d ∈ c.documents)) :
    m.get c' id = m.get c id := by
  by_cases hid : id ∈ ids
  · obtain ⟨d, hd, he⟩ := h.exists_document hid
    rw [get_of_mem h hn hd he, get_of_mem h' hn' ((hsame d he).mpr hd) he]
  · have hid' : id ∉ ids' := by
      intro hmem
      obtain ⟨d, hd, he⟩ := h'.exists_document hmem
      obtain ⟨other, hother, he'⟩ := h.exists_id ((hsame d he).mp hd)
      obtain rfl := Except.ok.inj (he'.symm.trans he)
      exact hid hother
    rw [get_of_notMem h hid, get_of_notMem h' hid']

theorem Finds.remove {named : List ObjectId} (h : c.HasIds ids) (hn : ids.Nodup)
    (hds : c'.documents = c.documents.filter (fun d => !d.hasIdIn named)) {x : Option (Entity β)}
    (hx : m.Finds c id x) : m.Finds c' id (if id ∈ named then none else x) := by
  have h' : c'.HasIds (ids.filter (fun id => !named.contains id)) := by
    rw [Collection.HasIds, hds]
    exact h.filter named
  by_cases hid : id ∈ named
  · rw [if_pos hid]
    exact get_of_notMem h' (by simp [hid])
  · rw [if_neg hid]
    refine hx.congr (get_congr h hn h' (hn.filter _) fun d he => ?_)
    rw [hds, List.mem_filter, Document.hasIdIn_of_id? _ he]
    simp [hid]

theorem WritesFields.mem_update_of_ne (hm : m.WritesFields) (h : c.HasIds ids) (hn : ids.Nodup)
    (q : δ) (now : Int64) {named : ObjectId} (hne : id ≠ named) {d : Document}
    (hd : d.id? = .ok id) :
    d ∈ (m.update c now named q).2.documents ↔ d ∈ c.documents := by
  by_cases hnamed : named ∈ ids
  · obtain ⟨found, hfound, he⟩ := h.exists_document hnamed
    have hkept : ∀ d, (m.changed now q d).id? = d.id? := fun d =>
      Document.id?_congr (hm.get_changed_of_mem q now d (by decide) (by decide))
    rw [update, m.write_of_mem h hn hfound he "update" (hm.update_changeUpdate q now found)]
    exact Collection.mem_rewrite_iff hkept hd (by simpa using hne)
  · rw [update, m.write_of_notMem h "update" hnamed]

end Get

section Serve

variable {σ : Schema} {bodies : β → Prop} {changes : δ → Prop} {amend : β → δ → β}
  (hm : m.Faithful σ bodies changes amend) {c : Collection} {ids : List ObjectId} {id : ObjectId}

include hm

/-- An entity that is answered is changed where it is stored, and its change is what is answered
from then on. -/
theorem Faithful.update_get {e : Entity β} (hget : m.get c id = .ok e) {q : δ} (hq : changes q)
    (now : Int64) : ∃ before d d' after, c.documents = before ++ d :: after ∧
      m.update c now id q =
        (.ok (e.amended amend now q), { c with documents := before ++ d' :: after }) ∧
      m.get { c with documents := before ++ d' :: after } id = .ok (e.amended amend now q) := by
  obtain ⟨before, d, after, hs, he⟩ := get_eq_ok_iff.mp hget
  obtain ⟨hds, hbefore, hfound⟩ := Collection.splitFirst_eq_some_iff.mp hs
  have hstored := m.decodeStored_ok_iff.mpr (hm.decode_changed hq now he)
  have hid : Document.get (m.changed now q d) idKey = Document.get d idKey :=
    hm.writes.get_changed_of_mem q now d (by decide) (by decide)
  have hs' : Collection.splitFirst (Query.byId id) (before ++ m.changed now q d :: after) =
      .ok (some (before, m.changed now q d, after)) :=
    Collection.splitFirst_eq_some_iff.mpr
      ⟨rfl, hbefore, (Query.matches_byId_congr hid id).trans hfound⟩
  refine ⟨before, d, _, after, hds, ?_, (m.get_of_some hs').trans hstored⟩
  rw [update, m.write_of_split hs (hm.writes.update_changeUpdate q now d), hstored]

theorem Faithful.finds_update (h : c.HasIds ids) (hn : ids.Nodup) {q : δ} (hq : changes q)
    (now : Int64) {x : Option (Entity β)} (hx : m.Finds c id x) :
    m.Finds (m.update c now id q).2 id (x.map (fun e => e.amended amend now q)) := by
  cases x with
  | some e =>
    obtain ⟨before, d, d', after, -, hupdate, hget⟩ := hm.update_get hx hq now
    rw [hupdate]
    exact hget
  | none =>
    rw [update, m.write_of_notMem h "update" (hx.notMem h hn)]
    exact hx

/-- After a request each identifier is answered with what the request makes of its entity. -/
theorem Faithful.finds_serve (h : c.HasIds ids) (hn : ids.Nodup) {r : Request β δ}
    (hr : r.Writes bodies changes) (hfresh : ∀ id, r.effect = .adds id → id ∉ ids)
    {x : Option (Entity β)} (hx : m.Finds c id x) :
    m.Finds (m.serve c r).2 id (r.outcome amend id x) := by
  have hserved := m.serve_holds hm.distinct.sparesId h hn r hfresh
  have h' := hserved.hasIds h
  have hn' := Effect.nodup_leaves hn hfresh
  cases r with
  | create fresh now body =>
    obtain ⟨hcreate, hget⟩ :=
      hm.keeps.create_get hm.distinct hm.rereads (h.isNew (hfresh fresh rfl)) now hr
    change m.Finds (m.create c fresh now body).2 id (if id = fresh then _ else x)
    by_cases hid : id = fresh
    · rw [if_pos hid, hid, hcreate]
      exact hget
    · rw [if_neg hid]
      refine hx.congr (get_congr h hn h' hn' fun d hd => ?_)
      have hne : d ≠ m.newDocument fresh now body := by
        rintro rfl
        have hnew := m.get_newDocument_id hm.distinct.sparesId fresh now body
        exact hid (Except.ok.inj (hd.symm.trans (Document.id?_eq_ok_iff.mpr hnew)))
      rw [hcreate, List.mem_append, List.mem_singleton, or_iff_left hne]
  | update now named q =>
    change m.Finds (m.update c now named q).2 id (if id = named then _ else x)
    by_cases hid : id = named
    · rw [if_pos hid, ← hid]
      exact hm.finds_update h hn hr now hx
    · rw [if_neg hid]
      refine hx.congr (get_congr h hn h' hn' fun d hd => ?_)
      exact hm.writes.mem_update_of_ne h hn q now hid hd
  | delete named =>
    have hremoved := hx.remove h hn hserved
    simp only [List.mem_singleton] at hremoved
    exact hremoved
  | deleteMany named => exact hx.remove h hn hserved

theorem Faithful.finds_run {rs : List (Request β δ)} (h : c.HasIds ids)
    (hn : (ids ++ Request.added rs).Nodup) (hrs : ∀ r ∈ rs, r.Writes bodies changes)
    {x : Option (Entity β)} (hx : m.Finds c id x) :
    m.Finds (m.run c rs) id (rs.foldl (Request.outcome amend id) x) := by
  induction rs generalizing c ids x with
  | nil => exact hx
  | cons r rs ih =>
    obtain ⟨hr, hrest⟩ := List.forall_mem_cons.mp hrs
    rw [Request.added_cons] at hn
    obtain ⟨hids, -, hdisjoint⟩ := List.nodup_append.mp hn
    have hfresh : ∀ id, r.effect = .adds id → id ∉ ids := by
      intro id he hid
      exact hdisjoint id hid id (by simp [he, Effect.added?]) rfl
    have hserved := m.serve_holds hm.distinct.sparesId h hids r hfresh
    exact ih (hserved.hasIds h)
      (hn.sublist (Effect.leaves_sublist ids (Request.added rs) r.effect)) hrest
      (hm.finds_serve h hids hr hfresh hx)

end Serve

/-- Creations, changes and what is answered afterwards agree. Of a run this says what is answered
for each identifier after it, given what was answered before. -/
structure Agrees (m : Model β δ) (bodies : β → Prop) (changes : δ → Prop) (amend : β → δ → β) :
    Prop where
  create : ∀ (c : Collection) (fresh : ObjectId) (now : Int64) (body : β), c.IsNew fresh →
    bodies body → ∃ d,
      m.create c fresh now body =
        (.ok ⟨fresh, body, now, now⟩, { c with documents := c.documents ++ [d] }) ∧
      m.get { c with documents := c.documents ++ [d] } fresh = .ok ⟨fresh, body, now, now⟩
  update : ∀ (c : Collection) (id : ObjectId) (e : Entity β) (now : Int64) (q : δ),
    m.get c id = .ok e → changes q → ∃ before d d' after,
      c.documents = before ++ d :: after ∧
      m.update c now id q =
        (.ok (e.amended amend now q), { c with documents := before ++ d' :: after }) ∧
      m.get { c with documents := before ++ d' :: after } id = .ok (e.amended amend now q)
  run : ∀ (c : Collection) (ids : List ObjectId) (rs : List (Request β δ)), c.HasIds ids →
    (ids ++ Request.added rs).Nodup → (∀ r ∈ rs, r.Writes bodies changes) →
    ∀ id x, m.Finds c id x → m.Finds (m.run c rs) id (rs.foldl (Request.outcome amend id) x)

theorem Faithful.agrees {σ : Schema} {bodies : β → Prop} {changes : δ → Prop} {amend : β → δ → β}
    (hm : m.Faithful σ bodies changes amend) : m.Agrees bodies changes amend where
  create := fun _ _ now _ hfresh hbody =>
    ⟨_, hm.keeps.create_get hm.distinct hm.rereads hfresh now hbody⟩
  update := fun _ _ _ now _ hget hq => hm.update_get hget hq now
  run := fun _ _ _ h hn hrs _ _ hx => hm.finds_run h hn hrs hx

end Model

namespace Datastore

/-- Records of plain data, and journeys and traces of valid filters, are answered as they were
created and changed. A change replaces the fields that it has and the time of the last change, and
leaves all other documents as they are. -/
theorem creations_and_changes_agree :
    Record.model.Agrees RecordBody.IsPlain RecordChange.IsPlain RecordBody.amended ∧
      Journey.model.Agrees JourneyBody.IsReadable JourneyChange.IsReadable JourneyBody.amended ∧
      Trace.model.Agrees TraceBody.IsReadable TraceChange.IsReadable TraceBody.amended :=
  ⟨Record.faithful.agrees, Journey.faithful.agrees, Trace.faithful.agrees⟩

/-- Rows of three kinds of plain values, beside a document of another identifier. -/
theorem creations_and_changes_agree_photo :
    let id (n : UInt8) : ObjectId := ⟨List.replicate 12 n, List.length_replicate⟩
    let photo : RecordBody := .embedded "photo"
      (.document [("rows", .array [.int32 1, .double 2.5, .null])])
    let c : Collection := ⟨"records", [[(idKey, .objectId (id 0))]]⟩
    photo.IsPlain ∧ ∃ c₁ c₂,
      Record.model.create c (id 1) 1 photo = (.ok ⟨id 1, photo, 1, 1⟩, c₁) ∧
      Record.model.update c₁ 2 (id 1) { description := some "sea" } =
        (.ok ⟨id 1, photo.withDescription "sea", 1, 2⟩, c₂) ∧
      Record.model.get c₂ (id 1) = .ok ⟨id 1, photo.withDescription "sea", 1, 2⟩ := by
  intro id photo c
  have hphoto : photo.IsPlain := by
    rintro data ⟨⟩
    refine ⟨by simp, .document (by simp [isOperatorName]) ?_⟩
    simp only [List.forall_mem_singleton]
    refine .array ?_
    simp only [List.forall_mem_cons, List.not_mem_nil, false_imp_iff, implies_true, and_true]
    exact ⟨.int32 1, .double 2.5, .null⟩
  have hids : c.HasIds [id 0] := rfl
  obtain ⟨hrecords, -⟩ := creations_and_changes_agree
  obtain ⟨d, hcreate, hget⟩ := hrecords.create c (id 1) 1 photo (hids.isNew (by decide)) hphoto
  have hchange : RecordChange.IsPlain { description := some "sea" } := by rintro _ ⟨⟩
  obtain ⟨before, -, d', after, -, hupdate, hget'⟩ :=
    hrecords.update _ (id 1) _ 2 _ hget hchange
  exact ⟨hphoto, _, _, hcreate, hupdate, hget'⟩

end Datastore

end DocumentStore
