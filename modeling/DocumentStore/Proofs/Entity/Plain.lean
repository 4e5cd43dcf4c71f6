import DocumentStore.Proofs.Entity.Written
import DocumentStore.Query.Matching

/-! Plain data: null, truth values, texts, numbers, and arrays and documents of these in which no
key is the name of an operator. They are stored as they are given, so records of plain data are
read back as they were written. -/

namespace DocumentStore

theorem Tagged.isTag_eq_false {key : String} (h : isOperatorName key = false) :
    isTag key = false := by
  have htags : ∀ tag ∈ codeKey :: scopeKey :: names, isOperatorName tag = true := by
    decide +kernel
  cases htag : isTag key with
  | false => rfl
  | true =>
    have hmem : key ∈ codeKey :: scopeKey :: names := by
      simpa [isTag, isName, or_assoc] using htag
    rw [htags key hmem] at h
    cases h

namespace Value

inductive IsPlain : Value → Prop where
  | null : IsPlain null
  | bool (b : Bool) : IsPlain (bool b)
  | string (s : String) : IsPlain (string s)
  | int32 (n : Int32) : IsPlain (int32 n)
  | int64 (n : Int64) : IsPlain (int64 n)
  | double (x : Float) : IsPlain (double x)
  | array {items : List Value} (h : ∀ v ∈ items, IsPlain v) : IsPlain (array items)
  | document {fields : List (String × Value)}
      (hkeys : ∀ entry ∈ fields, isOperatorName entry.1 = false)
      (hvalues : ∀ entry ∈ fields, IsPlain entry.2) : IsPlain (document fields)

theorem readOptional_of_ok {α : Type} {read : Reader α} {v : Value} {a : α} (hnull : v ≠ null)
    (h : read v = .ok a) : readOptional read v = .ok (some a) := by
  unfold readOptional
  split
  · exact absurd rfl hnull
  · rw [h]
    rfl

section Unchanged

variable {mode : Strictness} {items : List Value} {fields : List (String × Value)}

theorem untaggedItems_eq_self (h : ∀ v ∈ items, untagged mode v = .ok v) :
    untaggedItems mode items = .ok items := by
  induction items with
  | nil => rw [untaggedItems]
  | cons v vs ih =>
    obtain ⟨hv, hvs⟩ := List.forall_mem_cons.mp h
    rw [untaggedItems, hv, ih hvs]
    rfl

theorem untaggedFields_eq_self (hkeys : ∀ entry ∈ fields, isOperatorName entry.1 = false)
    (hvalues : ∀ entry ∈ fields, untagged mode entry.2 = .ok entry.2) :
    untaggedFields mode fields = .ok (fields, none) := by
  induction fields with
  | nil => rw [untaggedFields]
  | cons entry rest ih =>
    obtain ⟨hkey, hrest⟩ := List.forall_mem_cons.mp hkeys
    obtain ⟨hv, hvs⟩ := List.forall_mem_cons.mp hvalues
    rw [untaggedFields_cons mode (Tagged.isTag_eq_false hkey), hv, ih hrest hvs]
    rfl

theorem writtenItems_eq_self (h : ∀ v ∈ items, written v = v) : writtenItems items = items := by
  induction items with
  | nil => rw [writtenItems]
  | cons v vs ih =>
    obtain ⟨hv, hvs⟩ := List.forall_mem_cons.mp h
    rw [writtenItems, hv, ih hvs]

theorem writtenFields_eq_self (h : ∀ entry ∈ fields, written entry.2 = entry.2) :
    writtenFields fields = fields := by
  induction fields with
  | nil => rw [writtenFields]
  | cons entry rest ih =>
    obtain ⟨hv, hvs⟩ := List.forall_mem_cons.mp h
    rw [writtenFields, hv, ih hvs]

end Unchanged

theorem written?_of_plain {key : String} (h : isOperatorName key = false) (v : Value) :
    Tagged.written? key v = none := by
  have hne (tag : String) (htag : isOperatorName tag = true) : key ≠ tag := by
    rintro rfl
    rw [htag] at h
    cases h
  have hlimit : Tagged.written?.limit? key = none := by
    unfold Tagged.written?.limit?
    split
    case h_3 => rfl
    all_goals exact absurd rfl (hne _ (by decide))
  have hbytes : key ≠ "$numberDecimalBytes" := hne _ (by decide)
  have hundefined : key ≠ "$undefined" := hne _ (by decide)
  have hdate : key ≠ "$date" := hne _ (by decide)
  unfold Tagged.written?
  split
  · unfold Tagged.writtenText?
    split
    case h_9 => rfl
    all_goals exact absurd rfl (hne _ (by decide))
  · unfold Tagged.writtenBody?
    split
    case h_5 => rfl
    all_goals exact absurd rfl (hne _ (by decide))
  · rw [if_neg fun hboth => hbytes hboth.1]
  · rw [if_neg fun hboth => hundefined hboth.1]
  · rw [if_neg hdate, hlimit, ite_self]
  · rw [hlimit, ite_self]
  · rfl

theorem ofWritten_of_plain {fields : Document}
    (h : ∀ entry ∈ fields, isOperatorName entry.1 = false) :
    ofWritten fields = document fields := by
  unfold ofWritten
  split
  · next tag arg => rw [written?_of_plain (h (tag, arg) List.mem_cons_self), Option.getD_none]
  · have hcode : isOperatorName "$code" = false := h _ List.mem_cons_self
    exact absurd hcode (by decide)
  · have hscope : isOperatorName "$scope" = false := h _ List.mem_cons_self
    exact absurd hscope (by decide)
  · rfl

theorem IsPlain.untagged {v : Value} (h : v.IsPlain) (mode : Strictness) :
    v.untagged mode = .ok v := by
  induction h with
  | array _ ih =>
    rw [Value.untagged, untaggedItems_eq_self ih]
    rfl
  | document hkeys _ ih =>
    rw [Value.untagged, untaggedFields_eq_self hkeys ih]
    rfl
  | _ => rw [Value.untagged] <;> simp

theorem IsPlain.written {v : Value} (h : v.IsPlain) : v.written = v := by
  induction h with
  | array _ ih => rw [Value.written, writtenItems_eq_self ih]
  | document hkeys _ ih => rw [Value.written, writtenFields_eq_self ih, ofWritten_of_plain hkeys]
  | _ => rw [Value.written] <;> simp

theorem IsPlain.isTagFree {v : Value} (h : v.IsPlain) : v.isTagFree = true := by
  induction h with
  | array _ ih => exact itemsTagFree_iff.mpr ih
  | document hkeys _ ih =>
    refine fieldsTagFree_iff.mpr fun entry hentry => ?_
    exact ⟨Tagged.isTag_eq_false (hkeys entry hentry), ih entry hentry⟩
  | _ => rfl

end Value

namespace Content

/-- The data of a content, if it has any, are plain and not null alone. -/
def IsPlain (c : Content) : Prop :=
  ∀ data, c.data = some data → data ≠ .null ∧ data.IsPlain

theorem IsPlain.isReadable {c : Content} (h : c.IsPlain) : c.IsReadable := by
  intro data hdata
  obtain ⟨-, hplain⟩ := h data hdata
  rw [hplain.written]
  exact hplain.isTagFree

theorem read_toDocument {c : Content} (h : c.IsPlain) : read (.document c.toDocument) = .ok c := by
  cases c with
  | linked url media location => cases media <;> rfl
  | embedded data location =>
    have hlinked : readLinked (.document (embedded data location).toDocument) =
        .error (.missing "url") := by
      cases data <;> cases location <;> rfl
    have hdata : Document.get (embedded data location).toDocument "data" =
        data.map Value.written := by
      simp [toDocument, Document.get_append, Document.get_presentField]
    have hlocation : Document.get (embedded data location).toDocument "location" =
        location.map (fun p => .document p.toPoint) := by
      simp [toDocument, Document.get_append, Document.get_presentField]
    have hreaddata : Value.optionalField (Value.untagged .exact)
        (embedded data location).toDocument "data" = .ok data := by
      refine Value.optionalField_of_present hdata fun v hv => ?_
      obtain ⟨hnull, hplain⟩ := h v hv
      rw [hplain.written]
      exact Value.readOptional_of_ok hnull (hplain.untagged .exact)
    have hreadlocation : Value.optionalField readLocation
        (embedded data location).toDocument "location" = .ok location :=
      Value.optionalField_of_present hlocation fun _ _ => rfl
    have hembedded : readEmbedded (.document (embedded data location).toDocument) =
        .ok (embedded data location) := by
      change (do
        return embedded (← Value.optionalField (Value.untagged .exact) _ "data")
          (← Value.optionalField readLocation _ "location")) = _
      rw [hreaddata, hreadlocation]
      rfl
    rw [read, hlinked]
    simp only [hembedded]

end Content

def RecordBody.IsPlain (b : RecordBody) : Prop :=
  b.content.IsPlain

def RecordChange.IsPlain (q : RecordChange) : Prop :=
  ∀ content, q.content = some content → content.IsPlain

theorem DataType.read_toValue (t : DataType) : read t.toValue = .ok t := by
  cases t <;> rfl

namespace Record

theorem hasDistinctKeys : model.HasDistinctKeys := by
  intro r
  have hkeys : ((model.writeBody r).map Prod.fst).Sublist ["title", "description", "dataType",
      "dataSet", "tags", "content"] := by
    simp only [model, RecordBody.toDocument, List.map_append]
    exact ((((List.Sublist.refl ["title"]).append (presentField_keys _ _)).append
      (List.Sublist.refl ["dataType"])).append (presentField_keys _ _)).append
        (List.Sublist.refl ["tags", "content"])
  exact List.Nodup.sublist ((List.Sublist.refl _).append hkeys) (by decide)

theorem fields_of_body {r : RecordBody} {d : Document}
    (h : ∀ key ∉ Model.entityKeys, Document.get d key = Document.get (model.writeBody r) key) :
    Document.get d "title" = some (.string r.title) ∧
      Document.get d "description" = r.description.map .string ∧
      Document.get d "dataType" = some r.dataType.toValue ∧
      Document.get d "dataSet" = r.dataSet.map .string ∧
      Document.get d "tags" = some (textsValue r.tags) ∧
      Document.get d "content" = some (.document r.content.toDocument) := by
  rw [h "title" (by decide), h "description" (by decide), h "dataType" (by decide),
    h "dataSet" (by decide), h "tags" (by decide), h "content" (by decide)]
  simp [model, RecordBody.toDocument, Document.get_append, Document.get_presentField,
    Document.get_cons]

theorem rereads : model.Rereads RecordBody.IsPlain := by
  intro r hr d hd
  obtain ⟨htitle, hdescription, hdataType, hdataSet, htags, hcontent⟩ := fields_of_body hd
  change RecordBody.read d = _
  rw [RecordBody.read, Members.required_of_get htitle,
    Value.optionalField_of_present hdescription (fun _ _ => rfl),
    Members.required_of_get hdataType, DataType.read_toValue,
    Value.optionalField_of_present hdataSet (fun _ _ => rfl), Members.optional_of_get htags,
    readItems_textsValue, Members.required_of_get hcontent, Content.read_toDocument hr]
  rfl

end Record

end DocumentStore
