import DocumentStore.Proofs.Filter.Acceptance
import DocumentStore.Proofs.Filter.Embedded

/-! Filters by name and by position. An entry of a set is an object. A record is also read from a
list of its fields in their order, and only the entries themselves are asked to be objects, so that
what a concatenation combines may be lists. Such a list has all four fields of a filter, since one
that ends before the operand has none, and it is read as the object of these fields. -/

namespace DocumentStore

namespace Json

def IsObject (v : Json) : Prop :=
  ∃ members, v = .object members

/-- A filter by position: the key, the operation, the sign and the operand. -/
def IsFieldList (v : Json) : Prop :=
  ∃ (key operation : String) (negate : Bool) (operand : Json),
    v = .array [.string key, .string operation, .bool negate, operand]

/-- A list of four fields as an object. -/
def byName : Json → Json
  | .array [key, operation, negate, operand] =>
    .object [("key", key), ("operation", operation), ("negate", negate), ("value", operand)]
  | v => v

variable {α : Type} {name : String} {fields : List String} {items : List Json}
  {read : (String → ShapeError) → List (String × Json) → Except ShapeError α}

/-- A list is read as the object of its fields, unless there are more items than fields. Only the
reports of what is missing differ. -/
theorem readRecord_array_eq_ok_iff
    (hmissing : ∀ missing missing' members, Agree (read missing members) (read missing' members))
    {a : α} : readRecord name fields read (.array items) = .ok a ↔
      items.length ≤ fields.length ∧
        readRecord name fields read (.object (fields.zip items)) = .ok a := by
  have hagree := hmissing (fun _ => .tooShort items.length name fields.length) .missing
    (fields.zip items) a
  simp only [readRecord]
  rw [← hagree]
  cases read (fun _ => .tooShort items.length name fields.length) (fields.zip items) with
  | error e => simp
  | ok record =>
    by_cases hlong : fields.length < items.length
    · simp [hlong]
    · simp [hlong, Nat.not_lt.mp hlong]

end Json

namespace Members

variable {ε ν α : Type} {read : ν → Except ε α} {members : List (String × ν)} {key : String}

theorem agree_required (missing missing' : String → ε) :
    Agree (required read missing members key) (required read missing' members key) := by
  unfold required
  cases members.lookup key with
  | some v => exact Agree.refl _
  | none => exact Agree.of_errors

end Members

namespace Filter

def fieldNames : List String := ["key", "operation", "negate", "value"]

theorem fields_array_eq_ok_iff {items : List Json} {fields : FilterFields} :
    FilterFields.ofJson (.array items) = .ok fields ↔
      items.length ≤ 4 ∧ FilterFields.ofJson (.object (fieldNames.zip items)) = .ok fields := by
  refine Json.readRecord_array_eq_ok_iff fun missing missing' members => ?_
  refine (Agree.refl _).bind fun _ => (Members.agree_required _ _).bind fun _ => ?_
  exact (Members.agree_required _ _).bind fun _ => Agree.refl _

theorem lookup_fieldNames {items : List Json} {name : String} (h : name ∉ fieldNames) :
    (fieldNames.zip items).lookup name = none := by
  rw [List.lookup_eq_none_iff]
  intro entry hentry
  have hname : entry.1 ∈ fieldNames := (List.of_mem_zip hentry).1
  exact bne_iff_ne.mpr fun he => h (he ▸ hname)

theorem ofJson_eq_ok_iff_fields {v : Json} {f : Filter} (h : isConcatenation v = false) :
    ofJson v = .ok f ↔ ∃ fields, FilterFields.ofJson v = .ok fields ∧ fields.toFilter = .ok f := by
  rw [ofJson, h, if_neg Bool.false_ne_true]
  cases FilterFields.ofJson v <;> simp

theorem ofJson_array_eq_ok_iff {items : List Json} {f : Filter} : ofJson (.array items) = .ok f ↔
    items.length ≤ 4 ∧ ofJson (.object (fieldNames.zip items)) = .ok f := by
  have hlookup : (fieldNames.zip items).lookup "booleanOperation" = none :=
    lookup_fieldNames (by decide)
  have hleaf : isConcatenation (.object (fieldNames.zip items)) = false := by
    simp [isConcatenation, Json.get?, Json.asObject?, hlookup]
  rw [ofJson_eq_ok_iff_fields rfl, ofJson_eq_ok_iff_fields hleaf]
  simp only [fields_array_eq_ok_iff, and_assoc, exists_and_left]

/-- Every operation has an operand, which is never null. -/
theorem value_of_isWellFormed {members : List (String × Json)} (h : IsWellFormed members) :
    ∃ value, members.lookup "value" = some value := by
  obtain ⟨key, kind, -, -, hfits⟩ := h
  cases hvalue : members.lookup "value" with
  | some value => exact ⟨value, rfl⟩
  | none =>
    rw [hvalue] at hfits
    cases kind <;> simp [OperationKind.Fits, Json.get?, Json.asObject?] at hfits

/-- A list of fields that is read as a filter has all four of them. -/
theorem isFieldList_of_ofJson {items : List Json} {f : Filter} (h : ofJson (.array items) = .ok f) :
    (Json.array items).IsFieldList := by
  obtain ⟨hlong, hobject⟩ := ofJson_array_eq_ok_iff.mp h
  have hleaf : (fieldNames.zip items).lookup "booleanOperation" = none :=
    lookup_fieldNames (by decide)
  have hformed : IsWellFormed (fieldNames.zip items) := (judges hleaf).reads_iff.mp ⟨f, hobject⟩
  obtain ⟨operand, hoperand⟩ := value_of_isWellFormed hformed
  obtain ⟨key, kind, hshape, -, -⟩ := hformed
  match items with
  | [] | [_] | [_, _] | [_, _, _] => cases hoperand
  | [k, o, n, v] =>
    obtain rfl : k = .string key := Option.some.inj hshape.hasKey
    obtain rfl : o = .string kind.name := Option.some.inj hshape.hasOperation
    obtain ⟨b, rfl⟩ := hshape.flags ("negate", n) (by simp [fieldNames]) rfl
    exact ⟨key, kind.name, b, v, rfl⟩
  | _ :: _ :: _ :: _ :: _ :: _ =>
    simp only [List.length_cons] at hlong
    omega

theorem object_or_list_of_ofJson {v : Json} {f : Filter} (h : ofJson v = .ok f) :
    v.IsObject ∨ v.IsFieldList := by
  cases v with
  | object members => exact .inl ⟨members, rfl⟩
  | array items => exact .inr (isFieldList_of_ofJson h)
  | _ => cases h

/-- A list of the four fields is read as the object of these fields. -/
theorem agree_byName (v : Json) : Agree (ofJson v) (ofJson v.byName) := by
  unfold Json.byName
  split
  · exact fun f => ofJson_array_eq_ok_iff.trans (and_iff_right (Nat.le_refl 4))
  · exact Agree.refl _

end Filter

theorem Concatenation.filters_of_ofJson {members : List (String × Json)} {c : Concatenation}
    (h : ofJson (.object members) = .ok c) :
    ∃ filters, members.lookup "filters" = some (.array filters) ∧
      filters.mapM Filter.ofJson = .ok c.filters := by
  unfold ofJson at h
  split at h
  · next fields hfields =>
    have hshape := ConcatenationFields.ofJson_eq_ok_iff.mp hfields
    unfold ConcatenationFields.toConcatenation at h
    split at h
    · cases h
    · split at h
      · cases h
      · next hne =>
        obtain ⟨filters, hfilters, rfl⟩ := Traversal.map_eq_ok_iff.mp h
        rcases hshape.hasFilters with hlookup | ⟨-, hnone⟩
        · exact ⟨_, hlookup, hfilters⟩
        · exact absurd (List.isEmpty_iff.mpr hnone) hne
  · cases h

/-- What a concatenation combines are objects, or lists of the fields of a filter. -/
def Json.CombinesRecords (entry : Json) : Prop :=
  ∀ operator, entry.get? "booleanOperation" = some operator → ∃ filters,
    entry.get? "filters" = some (.array filters) ∧ ∀ f ∈ filters, f.IsObject ∨ f.IsFieldList

theorem FilterEntry.combinesRecords_of_ofJson {v : Json} {e : FilterEntry} (h : ofJson v = .ok e) :
    v.IsObject ∧ v.CombinesRecords := by
  cases v with
  | object members =>
    refine ⟨⟨members, rfl⟩, fun operator hoperator => ?_⟩
    rw [ofJson, if_pos (isConcatenation_of_lookup hoperator)] at h
    obtain ⟨c, hc, rfl⟩ := Traversal.map_eq_ok_iff.mp h
    obtain ⟨filters, hlookup, hfilters⟩ := Concatenation.filters_of_ofJson hc
    refine ⟨filters, hlookup, fun f hf => ?_⟩
    obtain ⟨leaf, hleaf⟩ := reads_mapM_iff.mp ⟨_, hfilters⟩ f hf
    exact Filter.object_or_list_of_ofJson hleaf
  | _ => cases h

namespace FilterSet

/-- The entries of a set that is read are objects. What they combine are objects as well, or lists
of the fields of a filter, and these are read as the objects of their fields. -/
theorem combined_by_name_or_position {v : Json} {s : FilterSet} (h : ofJson v = .ok s) :
    (∃ entries, v.get? "filterSet" = some (.array entries) ∧
      ∀ entry ∈ entries, entry.IsObject ∧ entry.CombinesRecords) ∧
    ∀ f : Json, Agree (Filter.ofJson f) (Filter.ofJson f.byName) := by
  refine ⟨?_, Filter.agree_byName⟩
  by_cases hnone : ∀ entries, v.get? "filterSet" ≠ some (.array entries)
  · obtain ⟨fault, hfault, -⟩ := ofJson_of_not_get hnone
    rw [h] at hfault
    cases hfault
  · obtain ⟨entries, hentries⟩ := not_forall_not.mp hnone
    rw [ofJson_of_get hentries] at h
    have hreads := (reads_readEntries_iff 0).mp (reads_map_iff.mp ⟨s, h⟩)
    refine ⟨entries, hentries, fun entry hentry => ?_⟩
    obtain ⟨e, he⟩ := hreads entry hentry
    exact FilterEntry.combinesRecords_of_ofJson he

/-- A set that combines one filter, which is a list. -/
def listed : Json :=
  .object [("filterSet", .array [.object [("booleanOperation", .string "AND"),
    ("filters", .array [.array [.string "public", .string "IS", .bool false, .bool true]])]])]

theorem combined_by_name_or_position_listed : ∃ s, ofJson listed = .ok s ∧
    ∃ entries, listed.get? "filterSet" = some (.array entries) ∧
      ∀ entry ∈ entries, entry.IsObject ∧ entry.CombinesRecords := by
  have hread : ofJson listed = .ok ⟨[.concatenation ⟨.and,
    [Filter.new (.ofString "public") (.is true)]⟩]⟩ := rfl
  exact ⟨_, hread, (combined_by_name_or_position hread).1⟩

/-- The entries of a set that is read are objects, but what they combine need not be. -/
theorem combined_list_accepted : ¬ ∀ v s, ofJson v = .ok s →
    ∃ entries, v.get? "filterSet" = some (.array entries) ∧ ∀ entry ∈ entries, entry.IsObject ∧
      ∀ operator filters, entry.get? "booleanOperation" = some operator →
        entry.get? "filters" = some (.array filters) → ∀ f ∈ filters, f.IsObject := by
  intro h
  obtain ⟨entries, hentries, hobjects⟩ := h listed _ rfl
  cases hentries
  obtain ⟨members, hlist⟩ := (hobjects _ List.mem_cons_self).2 _ _ rfl rfl _ List.mem_cons_self
  cases hlist

end FilterSet

end DocumentStore
