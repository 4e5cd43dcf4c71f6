import DocumentStore.Proofs.Collection.Identity
import DocumentStore.Proofs.Filter.Evaluation

/-! Filters on the identifier as lookups. Among documents with different identifiers a filter for a
text finds the one that is looked up by the identifier the text spells, and its negation finds all
others. A text that spells no identifier is that of no document. -/

namespace DocumentStore

/-- Whether a document has the identifier that a text spells. -/
def Document.hasSpelled (text : String) (d : Document) : Bool :=
  d.id?.toOption.any (fun id => id.IsSpelled text)

namespace Document

variable {d : Document} {id : ObjectId} {text : String}

theorem hasSpelled_of_id? (text : String) (h : d.id? = .ok id) :
    d.hasSpelled text = decide (id.IsSpelled text) := by
  rw [hasSpelled, h]
  rfl

theorem hasSpelled_iff (hs : id.IsSpelled text) : d.hasSpelled text = true ↔ d.id? = .ok id := by
  cases h : d.id? with
  | error fault => simp [hasSpelled, h, Except.toOption]
  | ok id' =>
    rw [hasSpelled_of_id? text h, decide_eq_true_eq, Except.ok.injEq,
      ← ObjectId.ofHex_eq_ok_iff, ObjectId.ofHex_eq_ok_iff.mpr hs, Except.ok.injEq]
    exact eq_comm

theorem hasSpelled_eq_false (d : Document) (hs : ∀ id : ObjectId, ¬ id.IsSpelled text) :
    d.hasSpelled text = false := by
  cases h : d.id? with
  | error fault => simp [hasSpelled, h, Except.toOption]
  | ok id =>
    rw [hasSpelled_of_id? text h, decide_eq_false_iff_not]
    exact hs id

end Document

namespace Filter

open Query

/-- The two operations on texts are one on the identifier. -/
theorem toQuery_of_identifier {key : FieldPath} (hkey : key.text = idKey) {op : Operation}
    {text : String} (hop : op = .contains text ∨ op = .equals text) (negate : Bool) :
    (Filter.mk key negate op).toQuery = .ok ((Test.identifier text).toQuery negate) := by
  have hid : key.isIdentifier = true := by
    rw [← key.ofString_text, hkey]
    decide +kernel
  rcases hop with rfl | rfl
  · exact if_pos hid
  · exact if_pos hid

theorem matches_identifier {d : Document} {id : ObjectId} (h : d.id? = .ok id) (text : String)
    (negate : Bool) : d.matches ((Test.identifier text).toQuery negate) =
      .ok (d.hasSpelled text != negate) := by
  rw [Test.matches_toQuery, answer_identifier, reached_id h, List.any_cons, List.any_nil,
    Bool.or_false, Value.isIdentifier_objectId, d.hasSpelled_of_id? text h]
  rfl

end Filter

namespace Collection

open Query

variable {c : Collection} {ids : List ObjectId}

/-- A property of one document at most splits the documents into those it has and all others. -/
theorem filter_of_split {p : Document → Bool} {before after : List Document}
    {found : Option Document} (hfound : ∀ d ∈ found, p d = true)
    (hothers : ∀ d ∈ before ++ after, p d = false) :
    (before ++ found.toList ++ after).filter p = found.toList ∧
      (before ++ found.toList ++ after).filter (fun d => !p d) = before ++ after := by
  obtain ⟨hbefore, hafter⟩ := List.forall_mem_append.mp hothers
  have hfound : ∀ d ∈ found.toList, p d = true := by simpa using hfound
  simp only [List.filter_append]
  constructor
  · rw [List.filter_eq_nil_iff.mpr (by simpa using hbefore), List.filter_eq_self.mpr hfound,
      List.filter_eq_nil_iff.mpr (by simpa using hafter)]
    simp
  · rw [List.filter_eq_self.mpr (by simpa using hbefore),
      List.filter_eq_nil_iff.mpr (by simpa using hfound),
      List.filter_eq_self.mpr (by simpa using hafter)]
    simp

namespace HasIds

theorem find_identifier (h : c.HasIds ids) (text : String) (negate : Bool) :
    c.find ((Filter.Test.identifier text).toQuery negate) =
      .ok (c.documents.filter (fun d => d.hasSpelled text != negate)) := by
  refine keep_of_answers fun d hd => ?_
  obtain ⟨id, -, hid⟩ := h.exists_id hd
  exact Filter.matches_identifier hid text negate

/-- A lookup tells the document with an identifier from all others. -/
theorem findOne_byId (h : c.HasIds ids) (hn : ids.Nodup) (id : ObjectId) :
    ∃ before found after, c.documents = before ++ Option.toList found ++ after ∧
      c.findOne (byId id) = .ok found ∧ (∀ d ∈ found, d.id? = .ok id) ∧
      ∀ d ∈ before ++ after, d.id? ≠ .ok id := by
  by_cases hid : id ∈ ids
  · obtain ⟨found, hfound, hfid⟩ := h.exists_document hid
    obtain ⟨before, after, hsplit, hothers⟩ := h.splitFirst_of_mem hn hfound hfid
    obtain ⟨hds, -⟩ := splitFirst_eq_some_iff.mp hsplit
    refine ⟨before, some found, after, by simpa using hds, ?_, by simpa using hfid, ?_⟩
    · rw [findOne, hsplit]
      rfl
    · intro d hd hdid
      have hother := hothers d hd
      rw [Document.hasIdIn_of_id? _ hdid] at hother
      simp at hother
  · refine ⟨c.documents, none, [], by simp, ?_, by simp, ?_⟩
    · rw [findOne, h.splitFirst_of_notMem hid]
      rfl
    · intro d hd hdid
      obtain ⟨id', hid', he⟩ := h.exists_id (by simpa using hd)
      exact hid (Except.ok.inj (hdid.symm.trans he) ▸ hid')

end HasIds

/-- A filter for a text on the identifier, however its key is spelled, finds what is looked up by
the identifier that the text spells, and its negation finds all others. With a text that spells none
the filter finds nothing and its negation everything. -/
theorem identifier_filters_look_up (h : c.HasIds ids) (hn : ids.Nodup) {spelling text : String}
    (hkey : (FieldPath.ofString spelling).text = idKey) {op : Operation}
    (hop : op = .contains text ∨ op = .equals text) :
    ∃ query query', (Filter.new (.ofString spelling) op).toQuery = .ok query ∧
      (Filter.new (.ofString spelling) op).negated.toQuery = .ok query' ∧
      (∀ id : ObjectId, id.IsSpelled text → ∃ before found after,
        c.documents = before ++ Option.toList found ++ after ∧
        c.findOne (byId id) = .ok found ∧ (∀ d ∈ found, d.id? = .ok id) ∧
        (∀ d ∈ before ++ after, d.id? ≠ .ok id) ∧
        c.find query = .ok found.toList ∧ c.find query' = .ok (before ++ after)) ∧
      ((∀ id : ObjectId, ¬ id.IsSpelled text) →
        c.find query = .ok [] ∧ c.find query' = .ok c.documents) := by
  refine ⟨_, _, Filter.toQuery_of_identifier hkey hop false,
    Filter.toQuery_of_identifier hkey hop true, ?_, ?_⟩
  · intro id hs
    obtain ⟨before, found, after, hds, hlookup, hfound, hothers⟩ := h.findOne_byId hn id
    obtain ⟨hkept, hrest⟩ := filter_of_split (p := Document.hasSpelled text)
      (fun d hd => (Document.hasSpelled_iff hs).mpr (hfound d hd))
      (fun d hd => Bool.eq_false_iff.mpr (mt (Document.hasSpelled_iff hs).mp (hothers d hd)))
    simp only [h.find_identifier, hds, Bool.bne_false, Bool.bne_true]
    exact ⟨before, found, after, rfl, hlookup, hfound, hothers, congrArg _ hkept, congrArg _ hrest⟩
  · intro hs
    have hnone := fun d => Document.hasSpelled_eq_false d hs
    simp [h.find_identifier, hnone]

/-- Letters of both cases, and blanks and brackets around the key. -/
theorem identifier_filters_look_up_letters :
    let rose : Document := [("_id", .objectId (.ofNat 0xAB)), ("title", .string "rose")]
    let fern : Document := [("_id", .objectId (.ofNat 0xCD)), ("title", .string "fern")]
    let c : Collection := ⟨"plants", [rose, fern]⟩
    let f := Filter.new (.ofString " [_id]") (.contains "0000000000000000000000aB")
    ∃ query query', f.toQuery = .ok query ∧ f.negated.toQuery = .ok query' ∧
      c.find query = .ok [rose] ∧ c.find query' = .ok [fern] := by
  intro rose fern c f
  have hids : c.HasIds [.ofNat 0xAB, .ofNat 0xCD] := rfl
  have hspelled : (ObjectId.ofNat 0xAB).IsSpelled "0000000000000000000000aB" := by decide +kernel
  have hkey : (FieldPath.ofString " [_id]").text = idKey := by decide +kernel
  have hlookup : c.findOne (byId (.ofNat 0xAB)) = .ok (some rose) := rfl
  obtain ⟨query, query', hquery, hquery', hsome, -⟩ :=
    identifier_filters_look_up hids (by decide) hkey (.inl rfl)
  obtain ⟨before, found, after, hds, hfound, -, hothers, hfind, hfind'⟩ := hsome _ hspelled
  obtain rfl := Except.ok.inj (hlookup.symm.trans hfound)
  refine ⟨query, query', hquery, hquery', hfind, hfind'.trans (congrArg Except.ok ?_)⟩
  cases before with
  | nil => exact (List.cons.inj hds).2.symm
  | cons d before =>
    obtain rfl := (List.cons.inj hds).1
    exact absurd rfl (hothers rose (by simp))

end Collection

end DocumentStore
