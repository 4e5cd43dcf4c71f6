import DocumentStore.Proofs.Entity.Written
import DocumentStore.Proofs.Service.Decoding

/-! What is created is found again. An entity that was stored under a new identifier is the one that
is answered for it, so the filters saved in it select what they selected before. -/

namespace DocumentStore

namespace Query

theorem matches_byId_of_notMem {d : Document} {id : ObjectId}
    (h : Value.objectId id ∉ d.reached (.ofString idKey)) : d.matches (byId id) = .ok false := by
  rw [matches_byId_eq, Value.equalsAny]
  split
  · rfl
  · refine congrArg Except.ok (List.any_eq_false.mpr ?_)
    intro v hv hequals
    rw [Value.equals_objectId, beq_iff_eq] at hequals
    cases v <;> simp only [Value.asObjectId?, reduceCtorEq, Option.some.injEq] at hequals
    exact h (hequals ▸ hv)

end Query

namespace Collection

/-- No document has an identifier, nor holds it in an array in the place of its own. -/
def IsNew (c : Collection) (id : ObjectId) : Prop :=
  ∀ d ∈ c.documents, Value.objectId id ∉ d.reached (.ofString idKey)

variable {c : Collection} {id : ObjectId}

theorem HasIds.isNew {ids : List ObjectId} (h : c.HasIds ids) (hid : id ∉ ids) : c.IsNew id := by
  intro d hd hreached
  obtain ⟨id', hid', he⟩ := h.exists_id hd
  rw [Query.reached_id he, List.mem_singleton, Value.objectId.injEq] at hreached
  exact hid (hreached ▸ hid')

theorem IsNew.holdsId (h : c.IsNew id) : c.holdsId id = false := by
  refine List.any_eq_false.mpr ?_
  intro d hd hsame
  have hid : d.id? = .ok id := by
    rw [Document.id?_eq_ok_iff]
    cases hget : Document.get d idKey with
    | none => simp [hget] at hsame
    | some v => cases v <;> simp_all [Value.same]
  exact h d hd (by simp [Query.reached_id hid])

theorem HasIds.isNew_of_holdsId {ids : List ObjectId} (h : c.HasIds ids)
    (hid : c.holdsId id = false) : c.IsNew id :=
  h.isNew (h.notMem_of_holdsId hid)

end Collection

namespace Model

variable {β δ : Type} {m : Model β δ} {σ : Schema} {bodies : β → Prop} {changes : δ → Prop}
  {c : Collection} {fresh : ObjectId}

theorem HasDistinctKeys.sparesId (h : m.HasDistinctKeys) : m.SparesId := by
  intro body hmem
  obtain ⟨-, -, hdisjoint⟩ := List.nodup_append.mp (h body)
  exact hdisjoint idKey (by simp [entityKeys]) idKey hmem rfl

theorem HasDistinctKeys.get_newDocument (h : m.HasDistinctKeys) {key : String}
    (hkey : key ∉ entityKeys) (fresh : ObjectId) (now : Int64) (body : β) :
    Document.get (m.newDocument fresh now body) key = Document.get (m.writeBody body) key := by
  simp only [entityKeys, List.mem_cons, List.not_mem_nil, or_false, not_or] at hkey
  obtain ⟨hid, hcreated, hupdated⟩ := hkey
  obtain ⟨-, hbody, -⟩ := List.nodup_append.mp (h body)
  rw [newDocument, Document.get_insert_of_ne _ _ hupdated, Document.get_insert_of_ne _ _ hcreated,
    Document.get_insertAll hbody, Document.get_cons, if_neg (Ne.symm hid)]
  exact Option.or_none

/-- An entity that is stored under a new identifier is answered by its creation, and afterwards for
its identifier. -/
theorem Keeps.create_get (hk : m.Keeps σ bodies changes) (hkeys : m.HasDistinctKeys)
    (hm : m.Rereads bodies) (hfresh : c.IsNew fresh) (now : Int64) {body : β}
    (hbody : bodies body) :
    m.create c fresh now body = (.ok ⟨fresh, body, now, now⟩,
        { c with documents := c.documents ++ [m.newDocument fresh now body] }) ∧
      m.get { c with documents := c.documents ++ [m.newDocument fresh now body] } fresh =
        .ok ⟨fresh, body, now, now⟩ := by
  have hid := m.get_newDocument_id hkeys.sparesId fresh now body
  have hdecode : m.decode (m.newDocument fresh now body) = .ok ⟨fresh, body, now, now⟩ := by
    refine m.decode_of_reads (hk.decodes _ (hk.holds_newDocument hbody fresh now)) hid
      (hm body hbody _ fun key hkey => hkeys.get_newDocument hkey fresh now body) ?_ ?_
    · rw [newDocument, Document.get_insert_of_ne _ _ (by decide), Document.get_insert_self]
    · exact Document.get_insert_self _ _ _
  have hstored := m.decodeStored_ok_iff.mpr hdecode
  have hmatches : (m.newDocument fresh now body).matches (Query.byId fresh) = .ok true := by
    rw [Query.matches_byId (Document.id?_eq_ok_iff.mpr hid),
      Document.hasIdIn_of_id? _ (Document.id?_eq_ok_iff.mpr hid)]
    simp
  have hsplit : Collection.splitFirst (Query.byId fresh)
      (c.documents ++ [m.newDocument fresh now body]) =
        .ok (some (c.documents, m.newDocument fresh now body, [])) :=
    Collection.splitFirst_eq_some_iff.mpr
      ⟨rfl, fun d hd => Query.matches_byId_of_notMem (hfresh d hd), hmatches⟩
  exact ⟨by rw [m.create_of_new hid hfresh.holdsId, hstored], (m.get_of_some hsplit).trans hstored⟩

/-- Where every document has an identifier, a creation is answered only for a new one. -/
theorem isNew_of_create {ids : List ObjectId} (hm : m.SparesId) (h : c.HasIds ids) {now : Int64}
    {body : β} {e : Entity β} {c' : Collection} (hok : m.create c fresh now body = (.ok e, c')) :
    c.IsNew fresh := by
  cases hheld : c.holdsId fresh with
  | false => exact h.isNew_of_holdsId hheld
  | true =>
    rw [m.create_of_held (m.get_newDocument_id hm fresh now body) hheld] at hok
    cases hok

end Model

namespace Datastore

/-- Saved filters are read back as they were, and select what they selected before. A set that is
accepted when it is parsed, or valid however it was made, is the same in a trace and in a collection
of a journey after they were written and read. A trace with it is created under every identifier
that is new. Once it is, it is answered for its identifier, and whatever the other collections hold
by then, its records are those that the set selects among them, page by page, or the fault that the
set meets. -/
theorem saved_filters_select (s : FilterSet) (hs : (∃ v, FilterSet.ofJson v = .ok s) ∨ s.Valid) :
    (∀ t : Trace, t.body.filters = s → Trace.model.decode (Trace.model.encode t) = .ok t) ∧
    (∀ c : JourneyCollection, c.filters = s →
      JourneyCollection.read (.document c.toDocument) = .ok c) ∧
    (∀ j : Journey, (∀ c ∈ j.body.collections, c.filters = s ∨ c.filters.Valid) →
      Journey.model.decode (Journey.model.encode j) = .ok j) ∧
    (∀ (journeys : Collection) (fresh : ObjectId) (now : Int64) (body : JourneyBody),
      journeys.IsNew fresh → (∀ c ∈ body.collections, c.filters = s ∨ c.filters.Valid) →
      ∃ created, Journey.model.create journeys fresh now body =
          (.ok ⟨fresh, body, now, now⟩, created) ∧
        Journey.model.get created fresh = .ok ⟨fresh, body, now, now⟩) ∧
    ∀ (traces : Collection) (fresh : ObjectId) (now : Int64) (body : TraceBody), body.filters = s →
      (traces.IsNew fresh → ∃ created, Trace.model.create traces fresh now body =
        (.ok ⟨fresh, body, now, now⟩, created)) ∧
      ∀ t created, Trace.model.create traces fresh now body = (.ok t, created) →
        (traces.IsNew fresh ∨ ∃ ids, traces.HasIds ids) →
        t = ⟨fresh, body, now, now⟩ ∧ Trace.model.get created t.id = .ok t ∧
        ∀ (records journeys : Collection) (page : Pagination) (projection : Projection),
          traceRecords ⟨records, journeys, created⟩ t.id page projection =
            Record.model.filtered records s page projection := by
  have hvalid : s.Valid := by
    rcases hs with ⟨v, hv⟩ | hs
    · exact FilterSet.valid_of_ofJson hv
    · exact hs
  have hjourney : ∀ body : JourneyBody,
      (∀ c ∈ body.collections, c.filters = s ∨ c.filters.Valid) → body.IsReadable := by
    intro body h c hc
    rcases h c hc with rfl | hcollection
    · exact hvalid
    · exact hcollection
  refine ⟨?_, ?_, ?_, ?_, ?_⟩
  · rintro t rfl
    exact Trace.keeps.decode_encode Trace.hasDistinctKeys Trace.rereads hvalid
  · rintro c rfl
    exact JourneyCollection.read_toDocument hvalid
  · intro j hj
    exact Journey.keeps.decode_encode Journey.hasDistinctKeys Journey.rereads (hjourney j.body hj)
  · intro journeys fresh now body hfresh hbody
    exact ⟨_, Journey.keeps.create_get Journey.hasDistinctKeys Journey.rereads hfresh now
      (hjourney body hbody)⟩
  · rintro traces fresh now body rfl
    have hcreate (hfresh : traces.IsNew fresh) := Trace.keeps.create_get Trace.hasDistinctKeys
      Trace.rereads hfresh now (show body.IsReadable from hvalid)
    refine ⟨fun hfresh => ⟨_, (hcreate hfresh).1⟩, ?_⟩
    · intro t created hok hstored
      have hfresh : traces.IsNew fresh := by
        rcases hstored with hfresh | ⟨ids, hids⟩
        · exact hfresh
        · exact Model.isNew_of_create Trace.sparesId hids hok
      obtain ⟨hcreated, hget⟩ := hcreate hfresh
      obtain ⟨ht, rfl⟩ := Prod.mk.inj (hok.symm.trans hcreated)
      obtain rfl := Except.ok.inj ht
      refine ⟨rfl, hget, ?_⟩
      intro records journeys page projection
      rw [traceRecords, hget]
      rfl

/-- The whole number three and the double three, negated or not, in one set with a ring. -/
theorem saved_filters_select_rows :
    let corner (x y : Float) : Position := ⟨x, y⟩
    let s : FilterSet := ⟨[
      .concatenation ⟨.or, [⟨.ofString "rows[0].size", true, .compare .eq (.int 3)⟩,
        ⟨.ofString "rows[1].size", false, .compare .eq (.float 3)⟩]⟩,
      .leaf ⟨.ofString "content.location", false,
        .area [corner 0 0, corner 180 0, corner 180 (-90), corner 0 0]⟩]⟩
    let id (n : UInt8) : ObjectId := ⟨List.replicate 12 n, List.length_replicate⟩
    let traces : Collection := ⟨"traces", [[(idKey, .objectId (id 0))]]⟩
    s.Valid ∧ traces.IsNew (id 1) ∧
      ∃ created t, Trace.model.create traces (id 1) 7 (.new "rows" "ann" s) = (.ok t, created) ∧
        t.body.filters = s ∧ ∀ records journeys page projection,
          traceRecords ⟨records, journeys, created⟩ t.id page projection =
            Record.model.filtered records s page projection := by
  intro corner s id traces
  have hcorner : ∀ p ∈ [corner 0 0, corner 180 0, corner 180 (-90), corner 0 0], p.Valid := by
    intro p hp
    simp only [List.mem_cons, List.not_mem_nil, or_false] at hp
    rcases hp with rfl | rfl | rfl | rfl <;>
      exact ⟨by decide +kernel, by decide +kernel, by decide +kernel, by decide +kernel⟩
  have hs : s.Valid := by
    intro e he
    simp only [s, List.mem_cons, List.not_mem_nil, or_false] at he
    rcases he with rfl | rfl
    · refine ⟨by simp, ?_⟩
      intro f hf
      simp only [List.mem_cons, List.not_mem_nil, or_false] at hf
      rcases hf with rfl | rfl
      · exact ⟨by decide +kernel, trivial⟩
      · exact ⟨by decide +kernel, show (3 : Float).isFinite = true by decide +kernel⟩
    · exact ⟨by decide +kernel, by decide, by decide +kernel, hcorner⟩
  have hids : traces.HasIds [id 0] := rfl
  have hnew : traces.IsNew (id 1) := hids.isNew (by decide)
  obtain ⟨-, -, -, -, htraces⟩ := saved_filters_select s (.inr hs)
  obtain ⟨hcreated, hsaved⟩ := htraces traces (id 1) 7 (.new "rows" "ann" s) rfl
  obtain ⟨created, hcreate⟩ := hcreated hnew
  obtain ⟨-, -, hrecords⟩ := hsaved _ created hcreate (.inr ⟨[id 0], hids⟩)
  exact ⟨hs, hnew, created, _, hcreate, rfl, hrecords⟩

end Datastore

end DocumentStore
