import DocumentStore.Proofs.Identifier
import DocumentStore.Proofs.Text.Pieces

/-! Lists of identifiers. The parts of a text between its commas are taken one after the other: a
blank one is passed over, one that writes an identifier adds it, and any other refuses the list. -/

namespace DocumentStore.ObjectId

/-- Spells an identifier, with or without blanks around it. -/
def IsWritten (id : ObjectId) (part : String) : Prop :=
  ∃ before spelled after, part = before ++ spelled ++ after ∧ id.IsSpelled spelled ∧
    Text.AllBlank before.toList ∧ Text.AllBlank after.toList

/-- Neither blank nor an identifier. -/
def IsMalformed (part : String) : Prop :=
  ¬ Text.AllBlank part.toList ∧ ∀ id : ObjectId, ¬ id.IsWritten part

/-- The first malformed part of a list. -/
def FirstMalformed (parts : List String) (part : String) : Prop :=
  IsMalformed part ∧
    ∃ before after, parts = before ++ part :: after ∧ ∀ p ∈ before, ¬ IsMalformed p

/-- The identifiers that the parts of a list write, in their order. -/
inductive Lists : List String → List ObjectId → Prop where
  | nil : Lists [] []
  | blank {part : String} {parts : List String} {ids : List ObjectId} :
      Text.AllBlank part.toList → Lists parts ids → Lists (part :: parts) ids
  | identifier {part : String} {parts : List String} {id : ObjectId} {ids : List ObjectId} :
      id.IsWritten part → Lists parts ids → Lists (part :: parts) (id :: ids)

/-- The parts of a text between its commas. -/
def partsOf (text : String) : List String :=
  (text.toList.splitOn ',').map String.ofList

variable {id : ObjectId} {ids : List ObjectId} {part : String} {parts : List String}

theorem intercalate_partsOf (text : String) : ",".intercalate (partsOf text) = text := by
  apply String.toList_inj.mp
  rw [String.toList_intercalate, partsOf, List.map_map]
  simp [List.intercalate_splitOn]

theorem isWritten_iff : id.IsWritten part ↔ id.IsSpelled (Text.trim part) := by
  constructor
  · rintro ⟨before, spelled, after, rfl, hspelled, hbefore, hafter⟩
    have hdigits := allDigits_of_isSpelled hspelled
    have hnone : ∀ c ∈ spelled.toList, Text.isBlank c = false :=
      fun c hc => Text.Hex.not_blank_of_digit (hdigits c hc)
    rw [Text.trim, String.toList_append, String.toList_append,
      Text.trimChars_surrounded hbefore hafter, Text.trimChars_of_no_blank hnone,
      String.ofList_toList]
    exact hspelled
  · intro hspelled
    obtain ⟨before, after, hcut, hbefore, hafter⟩ := (Text.trims_trimChars part.toList).cut
    refine ⟨String.ofList before, Text.trim part, String.ofList after, ?_, hspelled, ?_, ?_⟩
    · apply String.toList_inj.mp
      simpa [Text.trim] using hcut
    · rwa [String.toList_ofList]
    · rwa [String.toList_ofList]

theorem ofText_trim_eq_ok_iff : ofText (Text.trim part) = .ok id ↔ id.IsWritten part := by
  rw [isWritten_iff, ← ofHex_eq_ok_iff, ofText, Text.trim_trim]
  cases ofHex (Text.trim part) <;> simp [Except.mapError]

theorem not_blank_of_isWritten (h : id.IsWritten part) : ¬ Text.AllBlank part.toList := by
  intro hblank
  rw [isWritten_iff, Text.trim_eq_empty_iff.mpr hblank, isSpelled_iff] at h
  have hsize := id.size
  rw [← Option.some.inj h] at hsize
  cases hsize

theorem not_comma_of_isWritten (h : id.IsWritten part) : ',' ∉ part.toList := by
  obtain ⟨before, spelled, after, rfl, hspelled, hbefore, hafter⟩ := h
  have hdigits := allDigits_of_isSpelled hspelled
  rw [String.toList_append, String.toList_append, List.mem_append, List.mem_append]
  rintro ((hc | hc) | hc)
  · cases hbefore ',' hc
  · cases hdigits ',' hc
  · cases hafter ',' hc

theorem Lists.not_comma (h : Lists parts ids) : ∀ part ∈ parts, ',' ∉ part.toList := by
  induction h with
  | nil => exact List.forall_mem_nil _
  | blank hblank _ ih =>
    refine List.forall_mem_cons.mpr ⟨fun hc => ?_, ih⟩
    cases hblank ',' hc
  | identifier hid _ ih => exact List.forall_mem_cons.mpr ⟨not_comma_of_isWritten hid, ih⟩

/-- Parts that write identifiers have no comma, so they are the parts of the text they are joined
to. -/
theorem Lists.partsOf_intercalate (h : Lists parts ids) :
    Lists (partsOf (",".intercalate parts)) ids := by
  cases parts with
  | nil =>
    cases h
    exact .blank (List.forall_mem_nil _) .nil
  | cons part rest =>
    have hparts : partsOf (",".intercalate (part :: rest)) = part :: rest := by
      rw [partsOf, Text.splitOn_intercalate rfl h.not_comma (List.cons_ne_nil _ _), List.map_map]
      simp
    rwa [hparts]

theorem exists_lists_iff : (∃ ids, Lists parts ids) ↔ ∀ part ∈ parts, ¬ IsMalformed part := by
  constructor
  · rintro ⟨ids, h⟩
    induction h with
    | nil => exact List.forall_mem_nil _
    | blank hblank _ ih => exact List.forall_mem_cons.mpr ⟨fun hm => hm.1 hblank, ih⟩
    | identifier hid _ ih => exact List.forall_mem_cons.mpr ⟨fun hm => hm.2 _ hid, ih⟩
  · intro h
    induction parts with
    | nil => exact ⟨[], .nil⟩
    | cons part parts ih =>
      obtain ⟨hpart, hparts⟩ := List.forall_mem_cons.mp h
      obtain ⟨ids, hids⟩ := ih hparts
      by_cases hblank : Text.AllBlank part.toList
      · exact ⟨ids, .blank hblank hids⟩
      · obtain ⟨id, hid⟩ : ∃ id : ObjectId, id.IsWritten part := by
          by_contra hnone
          exact hpart ⟨hblank, not_exists.mp hnone⟩
        exact ⟨id :: ids, .identifier hid hids⟩

theorem exists_firstMalformed (h : ∃ part ∈ parts, IsMalformed part) :
    ∃ part, FirstMalformed parts part := by
  classical
  have hfound : (parts.find? (decide <| IsMalformed ·)).isSome := by simpa using h
  obtain ⟨part, hpart⟩ := Option.isSome_iff_exists.mp hfound
  obtain ⟨hmalformed, before, after, hparts, hbefore⟩ :=
    List.find?_eq_some_iff_append.mp hpart
  exact ⟨part, of_decide_eq_true hmalformed, before, after, hparts, by simpa using hbefore⟩

theorem Malformed.report_eq (m : Malformed) : m.report =
    ((ErrorReport.new .invalidInput
      ("Invalid input for id: '" ++ m.text ++ "' is not a valid identifier")).withField
        "id").withSource m.fault.message := by
  have hmessage : (ErrorReport.invalidInput "id" s!"'{m.text}' is not a valid identifier").message =
      "Invalid input for id: '" ++ m.text ++ "' is not a valid identifier" := by
    apply String.toList_inj.mp
    simp [ErrorReport.invalidInput, ErrorReport.withField, ErrorReport.new, toString]
  rw [← hmessage]
  rfl

/-- Reads a list from its parts. -/
def ofParts (parts : List String) : Except Malformed (List ObjectId) :=
  ofTexts ((parts.map Text.trim).filter (· ≠ ""))

theorem ofList_eq_ofParts (text : String) : ofList text = ofParts (partsOf text) := by
  rw [ofList, items, Text.pieces_eq_splitOnP, ofParts, partsOf, List.map_map, List.splitOn]
  simp only [Function.comp_def, Text.trim, String.toList_ofList]

theorem ofParts_blank (h : Text.AllBlank part.toList) :
    ofParts (part :: parts) = ofParts parts := by
  have hempty := Text.trim_eq_empty_iff.mpr h
  simp only [ofParts, List.map_cons, hempty]
  rfl

theorem ofParts_cons (h : ¬ Text.AllBlank part.toList) :
    ofParts (part :: parts) =
      ofText (Text.trim part) >>= fun id => (ofParts parts).map (id :: ·) := by
  have hne : Text.trim part ≠ "" := mt Text.trim_eq_empty_iff.mp h
  rw [ofParts, List.map_cons, List.filter_cons_of_pos (by simpa using hne), ofTexts,
    List.mapM_cons]
  rfl

theorem ofParts_identifier (h : id.IsWritten part) :
    ofParts (part :: parts) = (ofParts parts).map (id :: ·) := by
  rw [ofParts_cons (not_blank_of_isWritten h), ofText_trim_eq_ok_iff.mpr h]
  rfl

theorem ofParts_malformed (h : IsMalformed part) (after : List String) : ∃ fault,
    ofHex (Text.trim part) = .error fault ∧
      ofParts (part :: after) = .error ⟨Text.trim part, fault⟩ := by
  cases hread : ofHex (Text.trim part) with
  | ok id => exact absurd (isWritten_iff.mpr (ofHex_eq_ok_iff.mp hread)) (h.2 id)
  | error fault =>
    refine ⟨fault, rfl, ?_⟩
    rw [ofParts_cons h.1, ofText, Text.trim_trim, hread]
    rfl

theorem ofParts_append (h : Lists parts ids) (after : List String) :
    ofParts (parts ++ after) = (ofParts after).map (ids ++ ·) := by
  induction h with
  | nil =>
    rw [List.nil_append]
    cases ofParts after <;> rfl
  | blank hblank _ ih => rw [List.cons_append, ofParts_blank hblank, ih]
  | identifier hid _ ih =>
    rw [List.cons_append, ofParts_identifier hid, ih]
    cases ofParts after <;> rfl

theorem ofList_of_lists {text : String} (h : Lists (partsOf text) ids) : ofList text = .ok ids := by
  have hread := ofParts_append h []
  rw [List.append_nil] at hread
  rw [ofList_eq_ofParts, hread]
  exact congrArg Except.ok (List.append_nil ids)

theorem ofList_of_firstMalformed {text : String} (h : FirstMalformed (partsOf text) part) :
    ∃ fault, ofHex (Text.trim part) = .error fault ∧
      ofList text = .error ⟨Text.trim part, fault⟩ := by
  obtain ⟨hmalformed, before, after, hparts, hbefore⟩ := h
  obtain ⟨ids, hids⟩ := exists_lists_iff.mpr hbefore
  obtain ⟨fault, hfault, hrefused⟩ := ofParts_malformed hmalformed after
  refine ⟨fault, hfault, ?_⟩
  rw [ofList_eq_ofParts, hparts, ofParts_append hids _, hrefused]
  rfl

theorem ofList_eq_ok_iff {text : String} : ofList text = .ok ids ↔ Lists (partsOf text) ids := by
  refine ⟨fun h => ?_, ofList_of_lists⟩
  by_cases hmalformed : ∃ part ∈ partsOf text, IsMalformed part
  · obtain ⟨part, hfirst⟩ := exists_firstMalformed hmalformed
    obtain ⟨fault, -, herror⟩ := ofList_of_firstMalformed hfirst
    rw [h] at herror
    cases herror
  · obtain ⟨ids', hids'⟩ := exists_lists_iff.mpr (by simpa using hmalformed)
    obtain rfl := Except.ok.inj (h.symm.trans (ofList_of_lists hids'))
    exact hids'

theorem exists_firstMalformed_of_error {text : String} {m : Malformed}
    (h : ofList text = .error m) : ∃ part, FirstMalformed (partsOf text) part := by
  apply exists_firstMalformed
  by_contra hnone
  obtain ⟨ids, hids⟩ := exists_lists_iff.mpr (by simpa using hnone)
  rw [ofList_of_lists hids] at h
  cases h

theorem exists_error_iff {text : String} :
    (∃ m, ofList text = .error m) ↔ ∃ part ∈ partsOf text, IsMalformed part := by
  constructor
  · rintro ⟨m, h⟩
    obtain ⟨part, hmalformed, before, after, hparts, -⟩ := exists_firstMalformed_of_error h
    exact ⟨part, by simp [hparts], hmalformed⟩
  · intro h
    obtain ⟨part, hfirst⟩ := exists_firstMalformed h
    obtain ⟨fault, -, herror⟩ := ofList_of_firstMalformed hfirst
    exact ⟨_, herror⟩

/-- A text is read as the identifiers that it writes between its commas, in either letter case, with
blanks around them and blank parts among them. It is refused if a part is neither blank nor an
identifier, and the report names the first such part. -/
theorem ofList_exact (text : String) :
    (∀ ids, ofList text = .ok ids ↔ ∃ parts, Lists parts ids ∧ text = ",".intercalate parts) ∧
    ((∃ m, ofList text = .error m) ↔ ∃ part ∈ partsOf text, IsMalformed part) ∧
    ∀ m, ofList text = .error m → ∃ part named fault,
      FirstMalformed (partsOf text) part ∧ Text.Trims part.toList named.toList ∧
      ofHex named = .error fault ∧ m.report =
        ((ErrorReport.new .invalidInput
          ("Invalid input for id: '" ++ named ++ "' is not a valid identifier")).withField
            "id").withSource fault.message := by
  refine ⟨fun ids => ⟨?_, ?_⟩, exists_error_iff, ?_⟩
  · exact fun h => ⟨partsOf text, ofList_eq_ok_iff.mp h, (intercalate_partsOf text).symm⟩
  · rintro ⟨parts, hlists, rfl⟩
    exact ofList_of_lists hlists.partsOf_intercalate
  · intro m h
    obtain ⟨part, hfirst⟩ := exists_firstMalformed_of_error h
    obtain ⟨fault, hfault, herror⟩ := ofList_of_firstMalformed hfirst
    obtain rfl := Except.error.inj (h.symm.trans herror)
    have htrims : Text.Trims part.toList (Text.trim part).toList := by
      rw [Text.trim, String.toList_ofList]
      exact Text.trims_trimChars part.toList
    exact ⟨part, Text.trim part, fault, hfirst, htrims, hfault, Malformed.report_eq _⟩

/-- Letters of both cases, a blank part and a comma at the end, and a list with two malformed
parts. -/
theorem ofList_exact_letters :
    ofList " 0000000000000000000000aB, ,0000000000000000000000CD ," =
      .ok [.ofNat 0xAB, .ofNat 0xCD] ∧
    ∃ part, FirstMalformed (partsOf "0000000000000000000000aB, rose ,fern") part ∧
      Text.Trims part.toList "rose".toList := by
  constructor
  · have hempty : Text.AllBlank "".toList := by decide +kernel
    have hspace : Text.AllBlank " ".toList := by decide +kernel
    have hrose : (ofNat 0xAB).IsWritten " 0000000000000000000000aB" :=
      ⟨" ", "0000000000000000000000aB", "", by decide +kernel, by decide +kernel, hspace, hempty⟩
    have hfern : (ofNat 0xCD).IsWritten "0000000000000000000000CD " :=
      ⟨"", "0000000000000000000000CD", " ", by decide +kernel, by decide +kernel, hempty, hspace⟩
    have hlists : Lists [" 0000000000000000000000aB", " ", "0000000000000000000000CD ", ""]
        [.ofNat 0xAB, .ofNat 0xCD] :=
      .identifier hrose (.blank hspace (.identifier hfern (.blank hempty .nil)))
    exact ((ofList_exact _).1 _).mpr ⟨_, hlists, by decide +kernel⟩
  · have hread : ofList "0000000000000000000000aB, rose ,fern" =
        .error ⟨"rose", .digit "rose" 0 'r'⟩ := by rfl
    obtain ⟨part, named, fault, hfirst, htrims, -, hreport⟩ := (ofList_exact _).2.2 _ hread
    have hnamed : "rose" = named := by
      rw [Malformed.report_eq] at hreport
      have hmessage : "Invalid input for id: '" ++ "rose" ++ "' is not a valid identifier" =
          "Invalid input for id: '" ++ named ++ "' is not a valid identifier" :=
        congrArg ErrorReport.message hreport
      exact (String.append_right_inj _).mp ((String.append_left_inj _).mp hmessage)
    exact ⟨part, hfirst, hnamed ▸ htrims⟩

end DocumentStore.ObjectId
