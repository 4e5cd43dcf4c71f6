import DocumentStore.Proofs.Plan.Selection
import DocumentStore.Proofs.Service.Listing

/-! Refused filters. What is wrong with a filter is told to the caller when the filter is read,
except for two things that only the store refuses: a key that looks like an operator, and a pattern
that is too large without regard to case. -/

namespace DocumentStore

theorem FilterFault.report_isCallerError (fault : FilterFault) :
    fault.report.isCallerError = true := by
  induction fault with
  | operand key fault => cases fault <;> rfl
  | entry index fault ih => exact ih
  | _ => rfl

theorem ServiceFault.query_not_isCallerError (fault : QueryFault) :
    (ServiceFault.query fault).report.isCallerError = false := by
  rw [ServiceFault.report, QueryFault.toStoreError, StoreError.toReport, ErrorReport.database]
  rfl

theorem Query.atKey_of_operatorName {key : String} (h : isOperatorName key = true)
    (answer : Except QueryFault Bool) : ∃ fault, atKey key answer = .error fault := by
  unfold atKey
  rw [if_pos h]
  split
  · exact ⟨_, rfl⟩
  · exact ⟨_, rfl⟩

namespace Filter

/-- Whether the store refuses what was read. -/
def isRefused (f : Filter) : Bool :=
  isOperatorName f.key.text || f.isUnreadable

theorem not_isIdentifier_of_operatorName {f : Filter} (h : isOperatorName f.key.text = true) :
    f.key.isIdentifier = false := by
  cases hid : f.key.isIdentifier with
  | false => rfl
  | true =>
    rw [key_of_isIdentifier hid] at h
    exact absurd h (by decide +kernel)

theorem answer_of_operatorName {f : Filter} (h : isOperatorName f.key.text = true)
    (d : Document) : ∃ fault, f.test.answer d = .error fault := by
  have hid := not_isIdentifier_of_operatorName h
  obtain ⟨key, negate, operation⟩ := f
  have hkey : key.isIdentifier = false := hid
  cases operation <;> simp only [test, hkey, Bool.false_eq_true, if_false] <;>
    exact Query.atKey_of_operatorName h _

/-- The store answers the query of a valid filter unless it refuses its key or its pattern. -/
theorem answers_unless_refused {f : Filter} (hv : f.Valid) (d : Document) :
    Query.Answers (fun _ => True) f.isRefused (f.holds d) (d.matches f.query) := by
  unfold isRefused
  cases hk : isOperatorName f.key.text with
  | true =>
    obtain ⟨fault, hf⟩ := answer_of_operatorName hk d
    refine ⟨fault, trivial, ?_⟩
    rw [query, f.test.matches_toQuery, hf]
    rfl
  | false =>
    rw [Bool.false_or]
    rcases (answers_query hv hk d).eq_error_or_ok with ⟨hb, fault, -, hr⟩ | ⟨hb, hr⟩
    · rw [hb]
      exact ⟨fault, trivial, hr⟩
    · rw [hb]
      exact hr

end Filter

namespace FilterSet

variable {β δ : Type} (m : Model β δ)

theorem filteredDocuments_of_valid {s : FilterSet} (hv : s.Valid) (c : Collection)
    (page : Pagination) (projection : Projection) :
    if c.documents.any (s.meets Filter.isRefused) then
      ∃ fault, m.filteredDocuments c s page projection = .error (.query fault)
    else ∃ listing, m.filteredDocuments c s page projection = .ok listing := by
  have hplan := MatchPlan.ofFilterSet_of_isCompilable
    (fun e he => FilterEntry.isCompilable_of_valid (hv e he))
  have hrun : Query.Answers (fun _ => True) (c.documents.any (s.meets Filter.isRefused))
      (c.documents.filter s.holds) _ :=
    answers_run hv (fun d f hf => Filter.answers_unless_refused (valid_of_mem_leaves hv hf) d)
      c.documents
  rcases hrun.eq_error_or_ok with ⟨hb, fault, -, hr⟩ | ⟨hb, hr⟩
  · rw [if_pos hb]
    exact ⟨fault, m.filteredDocuments_error page projection hplan hr⟩
  · rw [if_neg (by simp [hb])]
    obtain ⟨_, _, _, -, -, -, hdocuments⟩ :=
      m.filteredDocuments_of_run page projection hplan hr
    exact ⟨_, hdocuments⟩

/-- A listing with a set that was read fails exactly if some document meets a refused filter before
the filters in front of it decide, and then the failure is not the caller's; without refused filters
there is none. What is not read at all is the caller's error. -/
theorem filteredDocuments_error_iff {v : Json} {s : FilterSet} (h : ofJson v = .ok s)
    (c : Collection) (page : Pagination) (projection : Projection) :
    ((∃ fault, m.filteredDocuments c s page projection = .error fault) ↔
      ∃ d ∈ c.documents, s.meets Filter.isRefused d = true) ∧
    (∀ fault, m.filteredDocuments c s page projection = .error fault →
      fault.report.isCallerError = false) ∧
    ((∀ f ∈ s.leaves, f.isRefused = false) →
      ∃ listing, m.filteredDocuments c s page projection = .ok listing) ∧
    ∀ v' fault, ofJson v' = .error fault → fault.report.isCallerError = true := by
  have hcases := filteredDocuments_of_valid m (valid_of_ofJson h) c page projection
  refine ⟨?_, ?_, ?_, fun _ fault _ => fault.report_isCallerError⟩
  · rw [← List.any_eq_true]
    split at hcases
    · next hany =>
      obtain ⟨fault, hf⟩ := hcases
      exact ⟨fun _ => hany, fun _ => ⟨_, hf⟩⟩
    · next hnone =>
      obtain ⟨listing, hl⟩ := hcases
      rw [hl]
      refine ⟨?_, fun hany => absurd hany hnone⟩
      rintro ⟨fault, hf⟩
      cases hf
  · intro fault hf
    split at hcases
    · obtain ⟨cause, hc⟩ := hcases
      obtain rfl := Except.error.inj (hc.symm.trans hf)
      exact ServiceFault.query_not_isCallerError cause
    · obtain ⟨listing, hl⟩ := hcases
      cases hl.symm.trans hf
  · intro hfree
    have hnone : ¬ c.documents.any (s.meets Filter.isRefused) = true := by
      simp [meets_of_free hfree]
    rwa [if_neg hnone] at hcases

/-- The refused filter stands behind one that holds of the first document only. -/
theorem filteredDocuments_error_iff_photo :
    let v : Json := .object [("filterSet", .array [.object [("booleanOperation", .string "OR"),
      ("filters", .array [
        .object [("key", .string "title"), ("operation", .string "MATCHES"),
          ("value", .string "photo")],
        .object [("key", .string "$where"), ("operation", .string "EQ"), ("value", .int 1)]])]])]
    let photo : Document := [("title", .string "photo")]
    let draft : Document := [("title", .string "draft")]
    ∃ s, ofJson v = .ok s ∧
      (∃ listing, Record.model.filteredDocuments ⟨"records", [photo]⟩ s .default .full =
        .ok listing) ∧
      ∃ fault, Record.model.filteredDocuments ⟨"records", [photo, draft]⟩ s .default .full =
        .error fault := by
  intro v photo draft
  let s : FilterSet := ⟨[.concatenation ⟨.or, [⟨.ofString "title", false, .equals "photo"⟩,
    ⟨.ofString "$where", false, .compare .eq (.int 1)⟩]⟩]⟩
  have hread : ofJson v = .ok s := rfl
  have hphoto : s.meets Filter.isRefused photo = false := by decide +kernel
  have hdraft : s.meets Filter.isRefused draft = true := by decide +kernel
  refine ⟨s, hread, ?_, ?_⟩
  · obtain ⟨hiff, -⟩ :=
      filteredDocuments_error_iff Record.model hread ⟨"records", [photo]⟩ .default .full
    cases hr : Record.model.filteredDocuments ⟨"records", [photo]⟩ s .default .full with
    | ok listing => exact ⟨listing, rfl⟩
    | error fault =>
      obtain ⟨d, hd, hrefused⟩ := hiff.mp ⟨fault, hr⟩
      obtain rfl := List.mem_singleton.mp hd
      rw [hphoto] at hrefused
      cases hrefused
  · obtain ⟨hiff, -⟩ :=
      filteredDocuments_error_iff Record.model hread ⟨"records", [photo, draft]⟩ .default .full
    exact hiff.mpr ⟨draft, by simp, hdraft⟩

/-- A key that the store takes for an operator: the set is read, and the first record refuses it as
a failure of the store. -/
theorem filteredDocuments_fails_on_operator_key :
    ∃ s fault,
      ofJson (.object [("filterSet", .array [.object [("key", .string "$where"),
        ("operation", .string "EQ"), ("value", .int 1)]])]) = .ok s ∧
      Record.model.filteredDocuments ⟨"records", [[("title", .string "photo")]]⟩ s .default .full =
        .error fault ∧
      fault.report.code = .databaseError ∧ fault.report.isCallerError = false :=
  ⟨_, .query (.unknownTopLevelOperator "$where"), rfl, by cbv, rfl, rfl⟩

end FilterSet

end DocumentStore
