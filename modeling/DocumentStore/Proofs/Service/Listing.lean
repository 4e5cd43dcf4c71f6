import DocumentStore.Entity.Record
import DocumentStore.Proofs.Double.Whole
import DocumentStore.Proofs.Plan.Forms
import DocumentStore.Proofs.Value.Document
import DocumentStore.Service.Basic

/-! Listings. A listing runs two pipelines with the same filters: one counts what they keep, and the
other takes a page of it. Both read their numbers as doubles, which no list that fits in memory is
long enough to show. -/

namespace DocumentStore

namespace Document

/-- A record as it is listed without the data of its content. -/
def withoutData (d : Document) : Document :=
  match get d "content" with
  | some (.document content) => insert d "content" (.document (erase content "data"))
  | _ => d

theorem removePath_bulkData (d : Document) :
    (removePath d (.ofString Pipeline.bulkDataField)).2 = d.withoutData := by
  have hsegments : (FieldPath.ofString Pipeline.bulkDataField).segments = ["content", "data"] := by
    decide +kernel
  have hindex : FieldPath.index? "data" = none := by decide +kernel
  unfold removePath withoutData
  rw [hsegments]
  dsimp only
  cases h : get d "content" with
  | none => rfl
  | some content =>
    cases content with
    | document fields => rfl
    | array items =>
      dsimp only [Value.removeAt]
      rw [hindex]
      exact insert_of_get h
    | _ => exact insert_of_get h

end Document

/-- A number as a stage reads it back: the same, or, where doubles are no longer exact, one that is
also beyond every list. -/
def ReadsAs (n k : Nat) : Prop :=
  (n < 2 ^ 53 → k = n) ∧ (2 ^ 53 ≤ n → 2 ^ 53 ≤ k)

namespace ReadsAs

variable {α : Type} {n k : Nat} {xs : List α}

theorem drop (h : ReadsAs n k) (hxs : xs.length < 2 ^ 53) : xs.drop k = xs.drop n := by
  rcases Nat.lt_or_ge n (2 ^ 53) with hn | hn
  · rw [h.1 hn]
  · have hk := h.2 hn
    rw [List.drop_eq_nil_of_le (by omega), List.drop_eq_nil_of_le (by omega)]

theorem take (h : ReadsAs n k) (hxs : xs.length < 2 ^ 53) : xs.take k = xs.take n := by
  rcases Nat.lt_or_ge n (2 ^ 53) with hn | hn
  · rw [h.1 hn]
  · have hk := h.2 hn
    rw [List.take_of_length_le (by omega), List.take_of_length_le (by omega)]

theorem pos (h : ReadsAs n k) (hn : 0 < n) : 0 < k := by
  rcases Nat.lt_or_ge n (2 ^ 53) with hs | hs
  · rw [h.1 hs]
    exact hn
  · exact Nat.lt_of_lt_of_le (by decide) (h.2 hs)

end ReadsAs

namespace Stage

theorem natural?_countValue (n : Nat) : ∃ k, natural? (countValue n) = some k ∧ ReadsAs n k := by
  have hmax : Int64.maxValue.toNatClampNeg = 2 ^ 63 - 1 := by decide
  have hclamped : (Int64.ofNat (min n (2 ^ 63 - 1))).toInt = ((min n (2 ^ 63 - 1) : Nat) : Int) :=
    Int64.toInt_ofNat_of_lt (by omega)
  have hdouble : (countValue n).asDouble? = some (Float.ofNat (min n (2 ^ 63 - 1))) := by
    rw [countValue, hmax, Value.asDouble?, hclamped]
    rfl
  obtain ⟨hnonneg, hintegral, hshort, hlong⟩ :=
    Double.ofNat_whole (show min n (2 ^ 63 - 1) < 2 ^ 64 by omega)
  refine ⟨(Float.ofNat (min n (2 ^ 63 - 1))).toUInt64.toNat, ?_, ?_, ?_⟩
  · rw [natural?, hdouble]
    simp only [hnonneg, hintegral, decide_true, Bool.and_self, if_true]
  · intro hn
    rw [hshort (by omega)]
    omega
  · intro hn
    exact hlong (by omega)

theorem ofDocument_skip (n : Nat) :
    ∃ k, ofDocument (skip n).toDocument = .ok (skip k) ∧ ReadsAs n k := by
  obtain ⟨k, hk, hreads⟩ := natural?_countValue n
  refine ⟨k, ?_, hreads⟩
  change (readNatural "$skip" (countValue n)).map skip = _
  rw [readNatural, hk]
  rfl

theorem ofDocument_limit {n : Nat} (hn : 0 < n) :
    ∃ k, ofDocument (limit n).toDocument = .ok (limit k) ∧ ReadsAs n k := by
  obtain ⟨k, hk, hreads⟩ := natural?_countValue n
  refine ⟨k, ?_, hreads⟩
  change (readNatural "$limit" (countValue n) >>=
    fun n => if n = 0 then Except.error .zeroLimit else .ok (limit n)) = _
  rw [readNatural, hk]
  exact if_neg (hreads.pos hn).ne'

theorem ofDocument_count :
    ofDocument (count Pipeline.countField).toDocument = .ok (count Pipeline.countField) := by
  have hname : isCountName Pipeline.countField = true := by decide +kernel
  change (if isCountName Pipeline.countField then
    Except.ok (count Pipeline.countField) else .error .countName) = _
  rw [hname]
  rfl

end Stage

namespace Projection

/-- What a projection makes of a document. -/
def view (bulkField : Option String) : Projection → Document → Document
  | full, d => d
  | metadataOnly, d => bulkField.elim d (fun field => (d.removePath (.ofString field)).2)

end Projection

namespace Pipeline

theorem run_append (p q : Pipeline) (ds : List Document) :
    run (p ++ q) ds = run p ds >>= run q := by
  induction p generalizing ds with
  | nil => rfl
  | cons stage stages ih =>
    rw [List.cons_append, run, run]
    cases Stage.ofDocument stage with
    | error fault => rfl
    | ok stage =>
      change (stage.run ds >>= run (stages ++ q)) = (stage.run ds >>= run stages) >>= run q
      cases stage.run ds with
      | error fault => rfl
      | ok ds => exact ih ds

theorem run_cons {stage : Stage} {d : Document} (h : Stage.ofDocument d = .ok stage)
    (stages : Pipeline) (ds : List Document) :
    run (d :: stages) ds = stage.run ds >>= run stages := by
  rw [run, h]
  rfl

theorem run_projection (projection : Projection) (bulkField : Option String)
    (ds : List Document) :
    run (ofStages (projection.stages bulkField)) ds =
      .ok (ds.map (projection.view bulkField)) := by
  cases projection with
  | full => exact congrArg Except.ok (List.map_id ds).symm
  | metadataOnly =>
    cases bulkField with
    | none => exact congrArg Except.ok (List.map_id ds).symm
    | some field => rfl

/-- What a listing makes of the documents its filters keep. -/
theorem run_listing (plan : MatchPlan) (page : Pagination) (projection : Projection)
    (bulkField : Option String) :
    ∃ k l, ReadsAs page.skip.toNat k ∧ ReadsAs page.limit.toNat l ∧
      ∀ ds, run (listing plan page projection bulkField) ds =
        (run (ofStages plan.stages) ds).map
          (fun found => ((found.drop k).take l).map (projection.view bulkField)) := by
  have hlimit : 0 < page.limit.toNat := page.limit_pos
  obtain ⟨k, hk, hskips⟩ := Stage.ofDocument_skip page.skip.toNat
  obtain ⟨l, hl, hlimits⟩ := Stage.ofDocument_limit hlimit
  refine ⟨k, l, hskips, hlimits, fun ds => ?_⟩
  rw [listing, ofStages, List.append_assoc, List.map_append, run_append]
  change run (ofStages plan.stages) ds >>= _ = _
  cases run (ofStages plan.stages) ds with
  | error fault => rfl
  | ok found =>
    change run ((Stage.skip page.skip.toNat).toDocument ::
      (Stage.limit page.limit.toNat).toDocument :: ofStages (projection.stages bulkField)) found = _
    rw [run_cons hk]
    change run _ (found.drop k) = _
    rw [run_cons hl]
    exact run_projection projection bulkField ((found.drop k).take l)

theorem run_counting (plan : MatchPlan) (ds : List Document) :
    run (counting plan) ds =
      run (ofStages plan.stages) ds >>= (Stage.count countField).run := by
  rw [counting, ofStages, List.map_append, run_append]
  change run (ofStages plan.stages) ds >>= _ = _
  cases run (ofStages plan.stages) ds with
  | error fault => rfl
  | ok found =>
    change run [(Stage.count countField).toDocument] found = (Stage.count countField).run found
    rw [run_cons Stage.ofDocument_count]
    rfl

/-- The count goes through a whole number of thirty-two bits and a double. -/
theorem readCount_run_count {found : List Document} (h : found.length < 2 ^ 31) :
    ∃ counted, (Stage.count countField).run found = .ok counted ∧
      (readCount counted).toNat = found.length := by
  refine ⟨_, rfl, ?_⟩
  cases found with
  | nil => rfl
  | cons d ds =>
    have hint : (Int32.ofInt ((d :: ds).length : Int)).toInt = ((d :: ds).length : Int) :=
      Int32.toInt_ofInt_of_le (by omega) (by omega)
    obtain ⟨-, -, hshort, -⟩ := Double.ofNat_whole (show (d :: ds).length < 2 ^ 64 by omega)
    have hdouble : (Value.int32 (Int32.ofInt ((d :: ds).length : Int))).asDouble? =
        some (Float.ofNat (d :: ds).length) := by
      rw [Value.asDouble?, hint]
      rfl
    simp only [List.isEmpty_cons, Bool.false_eq_true, if_false, readCount, List.head?_cons,
      Option.bind_some, Document.get_cons, if_true, hdouble]
    exact hshort (by omega)

/-- The stages of a plan keep some of the documents. -/
theorem sublist_of_run_stages {plan : MatchPlan} {ds found : List Document}
    (h : run (ofStages plan.stages) ds = .ok found) : found.Sublist ds := by
  rcases Query.run_filters_selects plan.conjuncts ds with ⟨-, hr⟩ | ⟨d, -, fault, -, hr⟩
  · rw [← Except.ok.inj (hr.symm.trans h)]
    exact List.filter_sublist
  · cases hr.symm.trans h

end Pipeline

namespace Model

variable {β δ : Type} (m : Model β δ) {c : Collection} {s : FilterSet} {plan : MatchPlan}
  (page : Pagination) (projection : Projection)

theorem filteredDocuments_of_plan (hplan : MatchPlan.ofFilterSet s = .ok plan) :
    m.filteredDocuments c s page projection =
      (m.runPlan c plan page projection).mapError .query := by
  rw [filteredDocuments, hplan]
  rfl

theorem filteredDocuments_error {fault : QueryFault}
    (hplan : MatchPlan.ofFilterSet s = .ok plan)
    (hrun : Pipeline.run (Pipeline.ofStages plan.stages) c.documents = .error fault) :
    m.filteredDocuments c s page projection = .error (.query fault) := by
  rw [filteredDocuments_of_plan m page projection hplan, runPlan, Collection.aggregate,
    Pipeline.run_counting, hrun]
  rfl

theorem filteredDocuments_of_run {found : List Document}
    (hplan : MatchPlan.ofFilterSet s = .ok plan)
    (hrun : Pipeline.run (Pipeline.ofStages plan.stages) c.documents = .ok found) :
    ∃ counted k l, (Stage.count Pipeline.countField).run found = .ok counted ∧
      ReadsAs page.skip.toNat k ∧ ReadsAs page.limit.toNat l ∧
      m.filteredDocuments c s page projection = .ok (.new page (Pipeline.readCount counted)
        (((found.drop k).take l).map (projection.view m.bulkField))) := by
  obtain ⟨k, l, hskip, hlimit, hlisting⟩ :=
    Pipeline.run_listing plan page projection m.bulkField
  refine ⟨_, k, l, rfl, hskip, hlimit, ?_⟩
  rw [filteredDocuments_of_plan m page projection hplan, runPlan, Collection.aggregate,
    Collection.aggregate, Pipeline.run_counting, hlisting, hrun]
  rfl

theorem filteredDocuments_ok {found : List Document} (hsize : c.size < 2 ^ 31)
    (hplan : MatchPlan.ofFilterSet s = .ok plan)
    (hrun : Pipeline.run (Pipeline.ofStages plan.stages) c.documents = .ok found) :
    ∃ total : UInt64, total.toNat = found.length ∧
      m.filteredDocuments c s page projection = .ok ⟨page.skip, page.limit, total,
        ((found.drop page.skip.toNat).take page.limit.toNat).map
          (projection.view m.bulkField)⟩ := by
  have hlength : found.length < 2 ^ 31 :=
    Nat.lt_of_le_of_lt (Pipeline.sublist_of_run_stages hrun).length_le hsize
  obtain ⟨counted, k, l, hcount, hskip, hlimit, hdocuments⟩ :=
    filteredDocuments_of_run m page projection hplan hrun
  obtain ⟨counted', hcount', htotal⟩ := Pipeline.readCount_run_count hlength
  obtain rfl : counted' = counted := Except.ok.inj (hcount'.symm.trans hcount)
  have hslice : (found.drop k).take l =
      (found.drop page.skip.toNat).take page.limit.toNat := by
    rw [hskip.drop (by omega), hlimit.take (by rw [List.length_drop]; omega)]
  rw [hslice] at hdocuments
  exact ⟨_, htotal, hdocuments⟩

theorem filtered_of_documents {listing : Listing Document}
    (h : m.filteredDocuments c s page projection = .ok listing) :
    m.filtered c s page projection = listing.mapResult m.decodeStored := by
  rw [filtered, h]
  rfl

theorem filtered_error {fault : ServiceFault}
    (h : m.filteredDocuments c s page projection = .error fault) :
    m.filtered c s page projection = .error fault := by
  rw [filtered, h]
  rfl

theorem decodeStored_ok_iff {d : Document} {e : Entity β} :
    m.decodeStored d = .ok e ↔ m.decode d = .ok e := by
  rw [decodeStored]
  cases m.decode d <;> simp [Except.mapError]

theorem decodeStored_error_iff {d : Document} {fault : ServiceFault} :
    m.decodeStored d = .error fault ↔
      ∃ cause, m.decode d = .error cause ∧ fault = .decode cause := by
  rw [decodeStored]
  cases m.decode d <;> simp [Except.mapError, eq_comm]

end Model

namespace Listing

variable {α β ε : Type} {f : α → Except ε β} {l : Listing α}

theorem mapResult_ok {results : List β}
    (h : List.Forall₂ (fun a b => f a = .ok b) l.results results) :
    l.mapResult f = .ok ⟨l.skip, l.limit, l.total, results⟩ := by
  rw [mapResult, Traversal.mapM_eq_ok_iff.mpr h]
  rfl

theorem mapResult_error {a : α} {e : ε} (ha : a ∈ l.results) (h : f a = .error e) :
    ∃ a' ∈ l.results, ∃ e', f a' = .error e' ∧ l.mapResult f = .error e' := by
  obtain ⟨a', ha', e', hf, hs⟩ := Traversal.mapM_error_of_mem ha h
  refine ⟨a', ha', e', hf, ?_⟩
  rw [mapResult, hs]
  rfl

end Listing

namespace Record

/-- How a listing of records shows one of them. -/
def listed : Projection → Document → Document
  | .full, d => d
  | .metadataOnly, d => d.withoutData

theorem view_eq_listed (projection : Projection) :
    projection.view model.bulkField = listed projection := by
  funext d
  cases projection with
  | full => rfl
  | metadataOnly => exact d.removePath_bulkData

theorem take_drop_eq_extract {α : Type} (xs : List α) (skip limit : Nat) :
    (xs.drop skip).take limit = xs.extract skip (min (skip + limit) xs.length) := by
  rw [List.extract_eq_take_drop, List.take_eq_take_iff, List.length_drop]
  omega

/-- A listing is a slice of what the filters of a plan keep. Where they are refused so is the
listing. Otherwise it holds the number of all that they keep and those at the positions of the page,
unchanged or without the data of their content, and with entities for documents it differs only
where one of these does not decode. Listings answer no collection: what is listed stays as it is. -/
theorem filtered_is_slice (c : Collection) (hsize : c.size < 2 ^ 31) (s : FilterSet)
    (plan : MatchPlan) (hplan : MatchPlan.ofFilterSet s = .ok plan) (page : Pagination)
    (projection : Projection) :
    (∀ fault, Pipeline.run (Pipeline.ofStages plan.stages) c.documents = .error fault →
      model.filteredDocuments c s page projection = .error (.query fault) ∧
        model.filtered c s page projection = .error (.query fault)) ∧
    ∀ found, Pipeline.run (Pipeline.ofStages plan.stages) c.documents = .ok found →
      ∃ total : UInt64, ∃ results : List Document,
        total.toNat = found.length ∧
        results = (found.extract page.skip.toNat
          (min (page.skip.toNat + page.limit.toNat) found.length)).map (listed projection) ∧
        model.filteredDocuments c s page projection =
          .ok ⟨page.skip, page.limit, total, results⟩ ∧
        (∀ records, List.Forall₂ (fun d r => model.decode d = .ok r) results records →
          model.filtered c s page projection = .ok ⟨page.skip, page.limit, total, records⟩) ∧
        ∀ d ∈ results, ∀ fault, model.decode d = .error fault →
          ∃ d' ∈ results, ∃ fault', model.decode d' = .error fault' ∧
            model.filtered c s page projection = .error (.decode fault') := by
  refine ⟨?_, ?_⟩
  · intro fault hrun
    have hdocuments := model.filteredDocuments_error page projection hplan hrun
    exact ⟨hdocuments, model.filtered_error page projection hdocuments⟩
  · intro found hrun
    obtain ⟨total, htotal, hdocuments⟩ :=
      model.filteredDocuments_ok page projection hsize hplan hrun
    rw [take_drop_eq_extract, view_eq_listed] at hdocuments
    have hfiltered := model.filtered_of_documents page projection hdocuments
    refine ⟨total, _, htotal, rfl, hdocuments, ?_, ?_⟩
    · intro records hrecords
      refine hfiltered.trans (Listing.mapResult_ok ?_)
      exact hrecords.imp (fun d r h => model.decodeStored_ok_iff.mpr h)
    · intro d hd fault hfault
      have hstored := model.decodeStored_error_iff.mpr ⟨fault, hfault, rfl⟩
      obtain ⟨d', hd', e', hf, hs⟩ := Listing.mapResult_error
        (l := ⟨page.skip, page.limit, total, _⟩) hd hstored
      obtain ⟨fault', hfault', rfl⟩ := model.decodeStored_error_iff.mp hf
      exact ⟨d', hd', fault', hfault', hfiltered.trans hs⟩

/-- Three photos; the second page of one holds the last that is tagged, without its data. -/
theorem filtered_is_slice_photos :
    let s : FilterSet := ⟨[.leaf ⟨.ofString "tags", false, .equals "sea"⟩]⟩
    let photo (title : String) (tags : List String) : Document :=
      [("title", .string title), ("tags", textsValue tags),
        ("content", .document [("data", .int32 7), ("location", .null)])]
    let c : Collection :=
      ⟨"records", [photo "a" ["sea", "sun"], photo "b" ["sun"], photo "c" ["sea"]]⟩
    let page : Pagination := ⟨1, 1, by decide⟩
    ∃ plan total, c.size < 2 ^ 31 ∧ MatchPlan.ofFilterSet s = .ok plan ∧ total.toNat = 2 ∧
      model.filteredDocuments c s page .metadataOnly = .ok ⟨1, 1, total,
        [[("title", .string "c"), ("tags", textsValue ["sea"]),
          ("content", .document [("location", .null)])]]⟩ := by
  intro s photo c page
  have hsize : c.size < 2 ^ 31 := by decide
  have hplan : MatchPlan.ofFilterSet s = .ok ⟨s.entries.map FilterEntry.query⟩ :=
    MatchPlan.ofFilterSet_of_isCompilable (by decide +kernel)
  have hrun : Pipeline.run
      (Pipeline.ofStages (MatchPlan.mk (s.entries.map FilterEntry.query)).stages) c.documents =
        .ok [photo "a" ["sea", "sun"], photo "c" ["sea"]] := by
    cbv
  obtain ⟨-, hok⟩ := filtered_is_slice c hsize s _ hplan page .metadataOnly
  obtain ⟨total, results, htotal, hresults, hdocuments, -⟩ := hok _ hrun
  have hpage : results = [(photo "c" ["sea"]).withoutData] := hresults
  have hphoto : (photo "c" ["sea"]).withoutData = [("title", .string "c"),
      ("tags", textsValue ["sea"]), ("content", .document [("location", .null)])] := by
    cbv
  rw [hpage, hphoto] at hdocuments
  exact ⟨_, total, hsize, hplan, htotal, hdocuments⟩

end Record

end DocumentStore
