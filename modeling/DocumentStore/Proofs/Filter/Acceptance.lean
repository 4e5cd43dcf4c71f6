import DocumentStore.Proofs.Filter.Operand
import DocumentStore.Proofs.Filter.Wire

/-! Which JSON is accepted as a filter set, and as what the rest is refused. The shape of a filter
is judged before its operation, and the operation before its key and operand; in a concatenation
the operator and whether it combines anything are judged before what it combines. The first entry
that is refused decides. -/

namespace DocumentStore

/-- The members have the shape of a filter with this key and this operation. Whether it is negated
may be left out, and members that a filter does not have are skipped. -/
structure Filter.HasShape (members : List (String × Json)) (key operation : String) : Prop where
  hasKey : members.lookup "key" = some (.string key)
  hasOperation : members.lookup "operation" = some (.string operation)
  texts : ∀ entry ∈ members, entry.1 = "key" ∨ entry.1 = "operation" → ∃ s, entry.2 = .string s
  flags : ∀ entry ∈ members, entry.1 = "negate" → ∃ b, entry.2 = .bool b

def Filter.IsWellFormed (members : List (String × Json)) : Prop :=
  ∃ (key : String) (kind : OperationKind), HasShape members key kind.name ∧
    (FieldPath.ofString key).isEmpty = false ∧ kind.Fits ((members.lookup "value").getD .null)

/-- What a filter is refused as, in the order of judgement. -/
inductive Filter.Offends (members : List (String × Json)) : ErrorCode → Prop where
  | shape : (∀ key operation, ¬ HasShape members key operation) → Offends members .failedToParse
  | operation {key operation : String} : HasShape members key operation →
      (∀ kind : OperationKind, operation ≠ kind.name) → Offends members .operationNotSupported
  | content {key : String} {kind : OperationKind} : HasShape members key kind.name →
      ¬ ((FieldPath.ofString key).isEmpty = false ∧
        kind.Fits ((members.lookup "value").getD .null)) → Offends members .invalidFilter

/-- A concatenation without filters has the shape of one that combines none. -/
structure Concatenation.HasShape (members : List (String × Json)) (operator : String)
    (filters : List Json) : Prop where
  hasOperator : members.lookup "booleanOperation" = some (.string operator)
  hasFilters : members.lookup "filters" = some (.array filters) ∨
    members.lookup "filters" = none ∧ filters = []
  operators : ∀ entry ∈ members, entry.1 = "booleanOperation" → ∃ s, entry.2 = .string s
  lists : ∀ entry ∈ members, entry.1 = "filters" → ∃ items, entry.2 = .array items

/-- What a concatenation combines: filters, none of them a concatenation. -/
def Json.IsFilter : Json → Prop
  | .object members => members.lookup "booleanOperation" = none ∧ Filter.IsWellFormed members
  | _ => False

inductive Json.OffendsAsFilter : Json → ErrorCode → Prop where
  | concatenation {members : List (String × Json)} {operator : Json} :
      members.lookup "booleanOperation" = some operator →
      OffendsAsFilter (.object members) .invalidFilter
  | filter {members : List (String × Json)} {code : ErrorCode} :
      members.lookup "booleanOperation" = none → Filter.Offends members code →
      OffendsAsFilter (.object members) code

def Concatenation.IsWellFormed (members : List (String × Json)) : Prop :=
  ∃ (combinator : Combinator) (filters : List Json), HasShape members combinator.name filters ∧
    filters ≠ [] ∧ ∀ f ∈ filters, f.IsFilter

inductive Concatenation.Offends (members : List (String × Json)) : ErrorCode → Prop where
  | shape : (∀ operator filters, ¬ HasShape members operator filters) →
      Offends members .failedToParse
  | operator {operator : String} {filters : List Json} : HasShape members operator filters →
      (∀ combinator : Combinator, operator ≠ combinator.name) →
      Offends members .operationNotSupported
  | empty {combinator : Combinator} : HasShape members combinator.name [] →
      Offends members .invalidFilter
  | filter {combinator : Combinator} {before after : List Json} {f : Json} {code : ErrorCode} :
      HasShape members combinator.name (before ++ f :: after) → (∀ g ∈ before, g.IsFilter) →
      f.OffendsAsFilter code → Offends members code

/-- An entry with an operator is a concatenation, whatever the operator is. -/
def Json.IsEntry : Json → Prop
  | .object members => if members.lookup "booleanOperation" = none
      then Filter.IsWellFormed members else Concatenation.IsWellFormed members
  | _ => False

theorem Json.isEntry_of_none {members : List (String × Json)}
    (h : members.lookup "booleanOperation" = none) :
    (object members).IsEntry ↔ Filter.IsWellFormed members :=
  iff_of_eq (if_pos h)

theorem Json.isEntry_of_some {members : List (String × Json)} {operator : Json}
    (h : members.lookup "booleanOperation" = some operator) :
    (object members).IsEntry ↔ Concatenation.IsWellFormed members :=
  iff_of_eq (if_neg (by simp [h]))

inductive Json.OffendsAsEntry : Json → ErrorCode → Prop where
  | kind {v : Json} : (∀ members, v ≠ .object members) → OffendsAsEntry v .failedToParse
  | filter {members : List (String × Json)} {code : ErrorCode} :
      members.lookup "booleanOperation" = none → Filter.Offends members code →
      OffendsAsEntry (.object members) code
  | concatenation {members : List (String × Json)} {operator : Json} {code : ErrorCode} :
      members.lookup "booleanOperation" = some operator → Concatenation.Offends members code →
      OffendsAsEntry (.object members) code

/-- A reading accepts what it should, and refuses the rest as it should. -/
def Judges {α : Type} (result : Except FilterFault α) (accepted : Prop)
    (offends : ErrorCode → Prop) : Prop :=
  (accepted ∧ Reads result ∧ ∀ code, ¬ offends code) ∨
    ¬ accepted ∧ ∃ fault, result = .error fault ∧ ∀ code, offends code ↔ code = fault.report.code

namespace Judges

variable {α β : Type} {result : Except FilterFault α} {accepted accepted' : Prop}
  {offends offends' : ErrorCode → Prop}

theorem map (g : α → β) (h : Judges result accepted offends) :
    Judges (result.map g) accepted offends := by
  rcases h with ⟨ha, hreads, hnone⟩ | ⟨hn, fault, rfl, hcode⟩
  · exact .inl ⟨ha, reads_map_iff.mpr hreads, hnone⟩
  · exact .inr ⟨hn, fault, rfl, hcode⟩

theorem congr (h : Judges result accepted offends) (ha : accepted ↔ accepted')
    (ho : ∀ code, offends code ↔ offends' code) : Judges result accepted' offends' := by
  obtain rfl : accepted = accepted' := propext ha
  obtain rfl : offends = offends' := funext fun code => propext (ho code)
  exact h

theorem not_accepted {code : ErrorCode} (h : Judges result accepted offends)
    (ho : offends code) : ¬ accepted := by
  rcases h with ⟨-, -, hnone⟩ | ⟨hn, -⟩
  · exact absurd ho (hnone code)
  · exact hn

theorem reads_iff (h : Judges result accepted offends) : Reads result ↔ accepted := by
  rcases h with ⟨ha, hreads, -⟩ | ⟨hn, fault, rfl, -⟩
  · exact iff_of_true hreads ha
  · refine iff_of_false ?_ hn
    rintro ⟨a, he⟩
    cases he

/-- A list is refused as its first item that is. -/
theorem mapM {f : Json → Except FilterFault α} {vs : List Json} {accepted : Json → Prop}
    {offends : Json → ErrorCode → Prop} (h : ∀ v ∈ vs, Judges (f v) (accepted v) (offends v)) :
    Judges (vs.mapM f) (∀ v ∈ vs, accepted v) fun code => ∃ before v after,
      vs = before ++ v :: after ∧ (∀ w ∈ before, accepted w) ∧ offends v code := by
  induction vs with
  | nil => exact .inl ⟨by simp, ⟨[], rfl⟩, by simp⟩
  | cons v vs ih =>
    rw [List.mapM_cons]
    obtain ⟨hv, hvs⟩ := List.forall_mem_cons.mp h
    rcases hv with ⟨ha, ⟨b, hb⟩, hnone⟩ | ⟨hn, fault, hfault, hcode⟩
    · rw [hb]
      refine ((ih hvs).map (b :: ·)).congr (by simp [ha]) fun code => ?_
      constructor
      · rintro ⟨before, w, after, rfl, hbefore, hw⟩
        exact ⟨v :: before, w, after, rfl, List.forall_mem_cons.mpr ⟨ha, hbefore⟩, hw⟩
      · rintro ⟨before, w, after, he, hbefore, hw⟩
        cases before with
        | nil =>
          cases he
          exact absurd hw (hnone code)
        | cons v' before =>
          cases he
          exact ⟨before, w, after, rfl, (List.forall_mem_cons.mp hbefore).2, hw⟩
    · refine .inr ⟨fun hall => hn (hall v (by simp)), fault, by rw [hfault]; rfl, fun code => ?_⟩
      rw [← hcode]
      constructor
      · rintro ⟨before, w, after, he, hbefore, hw⟩
        cases before with
        | nil =>
          cases he
          exact hw
        | cons v' before =>
          cases he
          exact absurd (hbefore v (by simp)) hn
      · exact fun hw => ⟨[], v, vs, rfl, by simp, hw⟩

end Judges

section Shapes

variable {members : List (String × Json)}

theorem Filter.HasShape.unique {key key' operation operation' : String}
    (h : Filter.HasShape members key operation) (h' : Filter.HasShape members key' operation') :
    key = key' ∧ operation = operation' := by
  have hkey := h.hasKey.symm.trans h'.hasKey
  have hoperation := h.hasOperation.symm.trans h'.hasOperation
  cases hkey
  cases hoperation
  exact ⟨rfl, rfl⟩

theorem Concatenation.HasShape.unique {operator operator' : String} {filters filters' : List Json}
    (h : Concatenation.HasShape members operator filters)
    (h' : Concatenation.HasShape members operator' filters') :
    operator = operator' ∧ filters = filters' := by
  have hoperator := h.hasOperator.symm.trans h'.hasOperator
  cases hoperator
  refine ⟨rfl, ?_⟩
  rcases h.hasFilters with hf | ⟨hf, rfl⟩ <;> rcases h'.hasFilters with hf' | ⟨hf', rfl⟩
  · cases hf.symm.trans hf'
    rfl
  · cases hf.symm.trans hf'
  · cases hf.symm.trans hf'
  · rfl

theorem FilterFields.checkMember_eq_ok_iff {name : String} {v : Json} :
    checkMember name v = .ok () ↔ (name = "key" ∨ name = "operation" → ∃ s, v = .string s) ∧
      (name = "negate" → ∃ b, v = .bool b) := by
  unfold checkMember
  split
  · rw [Members.readable_eq_ok_iff]
    cases v <;> simp [Json.readString, Reads]
  · rw [Members.readable_eq_ok_iff]
    cases v <;> simp [Json.readString, Reads]
  · rw [Members.readable_eq_ok_iff]
    cases v <;> simp [Json.readBool, Reads]
  · next hkey hoperation hnegate =>
    exact iff_of_true rfl ⟨fun h => (h.elim hkey hoperation).elim, fun h => (hnegate h).elim⟩

theorem readString_eq_ok_iff {v : Json} {s : String} :
    Json.readString v = .ok s ↔ v = .string s := by
  cases v <;> simp [Json.readString]

theorem FilterFields.hasShape_of_ofJson {fields : FilterFields}
    (h : ofJson (.object members) = .ok fields) :
    Filter.HasShape members fields.key fields.operation ∧
      fields.value = (members.lookup "value").getD .null := by
  obtain ⟨_, hcheck, h⟩ := Traversal.bind_eq_ok_iff.mp h
  obtain ⟨key, hkey, h⟩ := Traversal.bind_eq_ok_iff.mp h
  obtain ⟨operation, hoperation, h⟩ := Traversal.bind_eq_ok_iff.mp h
  obtain ⟨negate, -, h⟩ := Traversal.bind_eq_ok_iff.mp h
  cases h
  obtain ⟨_, hkey, hread⟩ := Members.required_eq_ok_iff.mp hkey
  obtain rfl := readString_eq_ok_iff.mp hread
  obtain ⟨_, hoperation, hread⟩ := Members.required_eq_ok_iff.mp hoperation
  obtain rfl := readString_eq_ok_iff.mp hread
  have htyped := fun entry hentry =>
    checkMember_eq_ok_iff.mp (Members.check_eq_ok_iff.mp hcheck entry hentry)
  exact ⟨⟨hkey, hoperation, fun entry hentry => (htyped entry hentry).1,
    fun entry hentry => (htyped entry hentry).2⟩, rfl⟩

theorem FilterFields.ofJson_of_hasShape {key operation : String}
    (h : Filter.HasShape members key operation) : Reads (ofJson (.object members)) := by
  have hcheck : Members.check checkMember members = .ok () := Members.check_eq_ok_iff.mpr
    fun entry hentry => checkMember_eq_ok_iff.mpr ⟨h.texts entry hentry, h.flags entry hentry⟩
  have hkey : Members.required Json.readString .missing members "key" = .ok key :=
    Members.required_eq_ok_iff.mpr ⟨_, h.hasKey, rfl⟩
  have hoperation : Members.required Json.readString .missing members "operation" =
      .ok operation := Members.required_eq_ok_iff.mpr ⟨_, h.hasOperation, rfl⟩
  have hnegate : Reads (Members.optional Json.readBool false members "negate") := by
    unfold Members.optional
    split
    · next v hv =>
      obtain ⟨before, after, he, -⟩ := List.lookup_eq_some_iff.mp hv
      obtain ⟨b, rfl⟩ := h.flags ("negate", v) (by simp [he]) rfl
      exact ⟨b, rfl⟩
    · exact ⟨false, rfl⟩
  obtain ⟨negate, hnegate⟩ := hnegate
  refine ⟨⟨key, operation, negate, (members.lookup "value").getD .null⟩, ?_⟩
  simp only [ofJson, Json.readRecord, hcheck, hkey, hoperation, hnegate]
  rfl

theorem ConcatenationFields.checkMember_eq_ok_iff {name : String} {v : Json} :
    checkMember name v = .ok () ↔ (name = "booleanOperation" → ∃ s, v = .string s) ∧
      (name = "filters" → ∃ items, v = .array items) := by
  unfold checkMember
  split
  · rw [Members.readable_eq_ok_iff]
    cases v <;> simp [Json.readString, Reads]
  · rw [Members.readable_eq_ok_iff]
    cases v <;> simp [Json.readArray, Reads]
  · next hoperator hfilters =>
    exact iff_of_true rfl ⟨fun h => (hoperator h).elim, fun h => (hfilters h).elim⟩

theorem ConcatenationFields.ofJson_eq_ok_iff {fields : ConcatenationFields} :
    ofJson (.object members) = .ok fields ↔
      Concatenation.HasShape members fields.booleanOperation fields.filters := by
  constructor
  · intro h
    obtain ⟨_, hcheck, h⟩ := Traversal.bind_eq_ok_iff.mp h
    obtain ⟨operator, hoperator, h⟩ := Traversal.bind_eq_ok_iff.mp h
    obtain ⟨filters, hfilters, h⟩ := Traversal.bind_eq_ok_iff.mp h
    cases h
    obtain ⟨_, hoperator, hread⟩ := Members.required_eq_ok_iff.mp hoperator
    obtain rfl := readString_eq_ok_iff.mp hread
    have htyped := fun entry hentry =>
      checkMember_eq_ok_iff.mp (Members.check_eq_ok_iff.mp hcheck entry hentry)
    refine ⟨hoperator, ?_, fun entry hentry => (htyped entry hentry).1,
      fun entry hentry => (htyped entry hentry).2⟩
    unfold Members.optional at hfilters
    split at hfilters
    · next v hv =>
      refine .inl ?_
      cases v <;> cases hfilters
      exact hv
    · next hv =>
      cases hfilters
      exact .inr ⟨hv, rfl⟩
  · intro h
    have hcheck : Members.check checkMember members = .ok () := Members.check_eq_ok_iff.mpr
      fun entry hentry => checkMember_eq_ok_iff.mpr ⟨h.operators entry hentry, h.lists entry hentry⟩
    have hoperator : Members.required Json.readString .missing members "booleanOperation" =
        .ok fields.booleanOperation := Members.required_eq_ok_iff.mpr ⟨_, h.hasOperator, rfl⟩
    have hfilters : Members.optional Json.readArray [] members "filters" = .ok fields.filters := by
      rcases h.hasFilters with hf | ⟨hf, he⟩
      · rw [Members.optional, hf]
        rfl
      · rw [Members.optional, hf, he]
    simp only [ofJson, Json.readRecord, hcheck, hoperator, hfilters]
    rfl

end Shapes

theorem OperationKind.named?_eq_some_iff {s : String} {kind : OperationKind} :
    named? s = some kind ↔ s = kind.name := by
  constructor
  · intro h
    unfold named? at h
    have hname := List.find?_some h
    exact (beq_iff_eq.mp hname).symm
  · rintro rfl
    exact named?_name kind

theorem OperationKind.name_injective : Function.Injective name := by
  intro kind kind' h
  have hnamed := named?_name kind
  rw [h, named?_name] at hnamed
  exact (Option.some.inj hnamed).symm

theorem Combinator.named?_eq_some_iff {s : String} {combinator : Combinator} :
    named? s = some combinator ↔ s = combinator.name := by
  constructor
  · intro h
    unfold named? at h
    split at h
    · next hs =>
      cases h
      exact beq_iff_eq.mp hs
    · split at h
      · next hs =>
        cases h
        exact beq_iff_eq.mp hs
      · cases h
  · rintro rfl
    exact named?_name combinator

namespace Filter

variable {members : List (String × Json)} {key operation : String} {kind : OperationKind}
  {code : ErrorCode}

theorem isWellFormed_iff (h : HasShape members key kind.name) : IsWellFormed members ↔
    (FieldPath.ofString key).isEmpty = false ∧ kind.Fits ((members.lookup "value").getD .null) := by
  constructor
  · rintro ⟨key', kind', h', hcontent⟩
    obtain ⟨rfl, hname⟩ := h.unique h'
    obtain rfl := OperationKind.name_injective hname
    exact hcontent
  · exact fun hcontent => ⟨key, kind, h, hcontent⟩

theorem offends_iff_of_known (h : HasShape members key kind.name) : Offends members code ↔
    ¬ IsWellFormed members ∧ code = .invalidFilter := by
  rw [isWellFormed_iff h]
  constructor
  · intro ho
    cases ho with
    | shape hn => exact absurd h (hn _ _)
    | operation h' hn => exact absurd (h'.unique h).2 (hn kind)
    | content h' hn =>
      obtain ⟨rfl, hname⟩ := h.unique h'
      obtain rfl := OperationKind.name_injective hname
      exact ⟨hn, rfl⟩
  · rintro ⟨hn, rfl⟩
    exact .content h hn

theorem offends_iff_of_unknown (h : HasShape members key operation)
    (hn : ∀ kind : OperationKind, operation ≠ kind.name) :
    Offends members code ↔ code = .operationNotSupported := by
  constructor
  · intro ho
    cases ho with
    | shape hn' => exact absurd h (hn' _ _)
    | operation => rfl
    | @content _ kind h' => exact absurd (h.unique h').2 (hn kind)
  · rintro rfl
    exact .operation h hn

theorem offends_iff_of_shape (hn : ∀ key operation, ¬ HasShape members key operation) :
    Offends members code ↔ code = .failedToParse := by
  constructor
  · intro ho
    cases ho with
    | shape => rfl
    | operation h => exact absurd h (hn _ _)
    | content h => exact absurd h (hn _ _)
  · rintro rfl
    exact .shape hn

theorem judges_toFilter {fields : FilterFields}
    (h : HasShape members fields.key fields.operation)
    (hvalue : fields.value = (members.lookup "value").getD .null) :
    Judges fields.toFilter (IsWellFormed members) (Offends members) := by
  unfold FilterFields.toFilter
  split
  · next hunknown =>
    have hn (kind : OperationKind) : fields.operation ≠ kind.name := fun he => by
      rw [OperationKind.named?_eq_some_iff.mpr he] at hunknown
      cases hunknown
    refine .inr ⟨?_, _, rfl, fun code => offends_iff_of_unknown h hn⟩
    rintro ⟨key, kind, h', -⟩
    exact hn kind (h.unique h').2
  · next kind hkind =>
    rw [OperationKind.named?_eq_some_iff.mp hkind] at h
    have hinvalid {fault : FilterFault} (hcode : fault.report.code = .invalidFilter)
        (hn : ¬ IsWellFormed members) :
        Judges (α := Filter) (.error fault) (IsWellFormed members) (Offends members) :=
      .inr ⟨hn, fault, rfl, fun code => by rw [offends_iff_of_known h, hcode, and_iff_right hn]⟩
    dsimp only
    split
    · next hempty =>
      refine hinvalid rfl fun hw => ?_
      rw [((isWellFormed_iff h).mp hw).1] at hempty
      cases hempty
    · next hkey =>
      split
      · next operation hoperation =>
        have hw : IsWellFormed members := (isWellFormed_iff h).mpr
          ⟨by simpa using hkey, hvalue ▸ Operation.reads_ofJson_iff.mp ⟨_, hoperation⟩⟩
        refine .inl ⟨hw, ⟨_, rfl⟩, fun code ho => ?_⟩
        exact ((offends_iff_of_known h).mp ho).1 hw
      · next fault hfault =>
        refine hinvalid (isInvalid_operand _ fault) fun hw => ?_
        have hfits := ((isWellFormed_iff h).mp hw).2
        rw [← hvalue] at hfits
        obtain ⟨_, hreads⟩ := Operation.reads_ofJson_iff.mpr hfits
        rw [hreads] at hfault
        cases hfault

theorem judges (hleaf : members.lookup "booleanOperation" = none) :
    Judges (ofJson (.object members)) (IsWellFormed members) (Offends members) := by
  have hplain : isConcatenation (.object members) = false :=
    Option.isSome_eq_false_iff.mpr (Option.isNone_iff_eq_none.mpr hleaf)
  rw [ofJson, hplain, if_neg Bool.false_ne_true]
  cases hfields : FilterFields.ofJson (.object members) with
  | ok fields =>
    obtain ⟨hshape, hvalue⟩ := FilterFields.hasShape_of_ofJson hfields
    exact judges_toFilter hshape hvalue
  | error e =>
    have hn (key operation : String) : ¬ HasShape members key operation := fun h => by
      obtain ⟨_, hreads⟩ := FilterFields.ofJson_of_hasShape h
      rw [hreads] at hfields
      cases hfields
    refine .inr ⟨?_, _, rfl, fun code => offends_iff_of_shape hn⟩
    rintro ⟨key, kind, h, -⟩
    exact hn key kind.name h

end Filter

theorem isConcatenation_of_lookup {members : List (String × Json)} {operator : Json}
    (h : members.lookup "booleanOperation" = some operator) :
    isConcatenation (.object members) = true :=
  Option.isSome_iff_exists.mpr ⟨operator, h⟩

/-- A filter of a concatenation is judged as any other, unless it is a concatenation. -/
theorem Json.judges_filter (members : List (String × Json)) :
    Judges (Filter.ofJson (.object members)) (IsFilter (.object members))
      (OffendsAsFilter (.object members)) := by
  cases hkind : members.lookup "booleanOperation" with
  | none =>
    refine (Filter.judges hkind).congr (iff_of_eq (by simp [IsFilter, hkind])) fun code => ?_
    constructor
    · exact .filter hkind
    · intro h
      cases h with
      | concatenation hkind' => cases hkind.symm.trans hkind'
      | filter _ h => exact h
  | some operator =>
    have hread : Filter.ofJson (.object members) = .error .nestedConcatenation := by
      rw [Filter.ofJson, if_pos (isConcatenation_of_lookup hkind)]
    refine .inr ⟨fun h => ?_, _, hread, fun code => ⟨fun h => ?_, ?_⟩⟩
    · cases hkind.symm.trans h.1
    · cases h with
      | concatenation => rfl
      | filter hkind' => cases hkind.symm.trans hkind'
    · rintro rfl
      exact .concatenation hkind

namespace Concatenation

variable {members : List (String × Json)} {operator : String} {combinator : Combinator}
  {filters : List Json} {code : ErrorCode}

theorem offends_iff_of_shape (hn : ∀ operator filters, ¬ HasShape members operator filters) :
    Offends members code ↔ code = .failedToParse := by
  constructor
  · intro ho
    cases ho with
    | shape => rfl
    | operator h => exact absurd h (hn _ _)
    | empty h => exact absurd h (hn _ _)
    | filter h => exact absurd h (hn _ _)
  · rintro rfl
    exact .shape hn

theorem offends_iff_of_unknown (h : HasShape members operator filters)
    (hn : ∀ combinator : Combinator, operator ≠ combinator.name) :
    Offends members code ↔ code = .operationNotSupported := by
  constructor
  · intro ho
    cases ho with
    | shape hn' => exact absurd h (hn' _ _)
    | operator => rfl
    | @empty combinator h' => exact absurd (h.unique h').1 (hn combinator)
    | @filter combinator _ _ _ _ h' => exact absurd (h.unique h').1 (hn combinator)
  · rintro rfl
    exact .operator h hn

theorem offends_iff_of_empty (h : HasShape members combinator.name []) :
    Offends members code ↔ code = .invalidFilter := by
  constructor
  · intro ho
    cases ho with
    | shape hn => exact absurd h (hn _ _)
    | operator h' hn => exact absurd (h'.unique h).1 (hn combinator)
    | empty => rfl
    | filter h' => simpa using (h.unique h').2
  · rintro rfl
    exact .empty h

theorem offends_iff_of_filters (h : HasShape members combinator.name filters)
    (hne : filters ≠ []) : Offends members code ↔ ∃ before f after,
      filters = before ++ f :: after ∧ (∀ g ∈ before, g.IsFilter) ∧ f.OffendsAsFilter code := by
  constructor
  · intro ho
    cases ho with
    | shape hn => exact absurd h (hn _ _)
    | operator h' hn => exact absurd (h'.unique h).1 (hn combinator)
    | empty h' => exact absurd (h.unique h').2 hne
    | filter h' hbefore hf => exact ⟨_, _, _, (h.unique h').2, hbefore, hf⟩
  · rintro ⟨before, f, after, rfl, hbefore, hf⟩
    exact .filter h hbefore hf

theorem isWellFormed_iff (h : HasShape members combinator.name filters) (hne : filters ≠ []) :
    IsWellFormed members ↔ ∀ f ∈ filters, f.IsFilter := by
  constructor
  · rintro ⟨combinator', filters', h', -, hall⟩
    obtain ⟨-, rfl⟩ := h.unique h'
    exact hall
  · exact fun hall => ⟨combinator, filters, h, hne, hall⟩

theorem judges_toConcatenation {fields : ConcatenationFields}
    (h : HasShape members fields.booleanOperation fields.filters)
    (hobjects : ∀ f ∈ fields.filters, ∃ members, f = .object members) :
    Judges fields.toConcatenation (IsWellFormed members) (Offends members) := by
  unfold ConcatenationFields.toConcatenation
  split
  · next hunknown =>
    have hn (combinator : Combinator) : fields.booleanOperation ≠ combinator.name := fun he => by
      rw [Combinator.named?_eq_some_iff.mpr he] at hunknown
      cases hunknown
    refine .inr ⟨?_, _, rfl, fun code => offends_iff_of_unknown h hn⟩
    rintro ⟨combinator, filters, h', -⟩
    exact hn combinator (h.unique h').1
  · next combinator hcombinator =>
    rw [Combinator.named?_eq_some_iff.mp hcombinator] at h
    split
    · next hempty =>
      rw [List.isEmpty_iff.mp hempty] at h
      refine .inr ⟨?_, _, rfl, fun code => offends_iff_of_empty h⟩
      rintro ⟨combinator', filters, h', hne, -⟩
      exact hne (h.unique h').2.symm
    · next hne =>
      have hne' : fields.filters ≠ [] := fun he => hne (List.isEmpty_iff.mpr he)
      have hfilters : ∀ f ∈ fields.filters,
          Judges (Filter.ofJson f) f.IsFilter f.OffendsAsFilter := by
        intro f hf
        obtain ⟨members, rfl⟩ := hobjects f hf
        exact Json.judges_filter members
      exact ((Judges.mapM hfilters).map _).congr (isWellFormed_iff h hne').symm
        fun code => (offends_iff_of_filters h hne').symm

theorem judges (hobjects : ∀ filters, members.lookup "filters" = some (.array filters) →
      ∀ f ∈ filters, ∃ members, f = .object members) :
    Judges (ofJson (.object members)) (IsWellFormed members) (Offends members) := by
  rw [ofJson]
  cases hfields : ConcatenationFields.ofJson (.object members) with
  | ok fields =>
    have h := ConcatenationFields.ofJson_eq_ok_iff.mp hfields
    refine judges_toConcatenation h fun f hf => ?_
    rcases h.hasFilters with hlookup | ⟨-, hnone⟩
    · exact hobjects _ hlookup f hf
    · rw [hnone] at hf
      cases hf
  | error e =>
    have hn (operator : String) (filters : List Json) : ¬ HasShape members operator filters :=
      fun h => by
        have hok : ConcatenationFields.ofJson (.object members) = .ok ⟨operator, filters⟩ :=
          ConcatenationFields.ofJson_eq_ok_iff.mpr h
        rw [hok] at hfields
        cases hfields
    refine .inr ⟨?_, _, rfl, fun code => offends_iff_of_shape hn⟩
    rintro ⟨combinator, filters, h, -⟩
    exact hn combinator.name filters h

end Concatenation

/-- What an entry combines, if it is a concatenation, are objects. -/
def Json.CombinesObjects (entry : Json) : Prop :=
  ∀ operator filters, entry.get? "booleanOperation" = some operator →
    entry.get? "filters" = some (.array filters) → ∀ f ∈ filters, ∃ members, f = .object members

theorem FilterEntry.judges {v : Json} (hobjects : v.CombinesObjects) :
    Judges (ofJson v) v.IsEntry v.OffendsAsEntry := by
  cases v with
  | object members =>
    cases hkind : members.lookup "booleanOperation" with
    | none =>
      have hread : ofJson (.object members) = (Filter.ofJson (.object members)).map .leaf :=
        if_neg (by simp [isConcatenation, Json.get?, Json.asObject?, hkind])
      rw [hread]
      refine ((Filter.judges hkind).map _).congr (Json.isEntry_of_none hkind).symm fun code => ?_
      constructor
      · exact .filter hkind
      · intro h
        cases h with
        | kind hn => exact absurd rfl (hn members)
        | filter _ h => exact h
        | concatenation hkind' => cases hkind.symm.trans hkind'
    | some operator =>
      have hread : ofJson (.object members) =
          (Concatenation.ofJson (.object members)).map .concatenation :=
        if_pos (isConcatenation_of_lookup hkind)
      have hjudges := Concatenation.judges fun filters hfilters =>
        hobjects operator filters hkind hfilters
      rw [hread]
      refine (hjudges.map _).congr (Json.isEntry_of_some hkind).symm fun code => ?_
      constructor
      · exact .concatenation hkind
      · intro h
        cases h with
        | kind hn => exact absurd rfl (hn members)
        | filter hkind' => cases hkind.symm.trans hkind'
        | concatenation _ h => exact h
  | _ =>
    refine .inr ⟨id, .entryNotAnObject, rfl, fun code => ⟨fun h => ?_, ?_⟩⟩
    · cases h
      rfl
    · rintro rfl
      exact .kind (by simp)

theorem reads_readEntries_iff (index : Nat) {vs : List Json} :
    Reads (readEntries index vs) ↔ ∀ v ∈ vs, Reads (FilterEntry.ofJson v) := by
  induction vs generalizing index with
  | nil => exact iff_of_true ⟨[], rfl⟩ (by simp)
  | cons v vs ih =>
    rw [readEntries, List.forall_mem_cons, ← ih (index + 1)]
    cases FilterEntry.ofJson v with
    | error fault => simp [Reads]
    | ok e =>
      rw [reads_map_iff]
      exact (and_iff_right ⟨e, rfl⟩).symm

theorem readEntries_eq_error (index : Nat) {before : List Json} (after : List Json) {v : Json}
    {fault : FilterFault} (hbefore : ∀ w ∈ before, Reads (FilterEntry.ofJson w))
    (hv : FilterEntry.ofJson v = .error fault) :
    readEntries index (before ++ v :: after) = .error (.entry (index + before.length) fault) := by
  induction before generalizing index with
  | nil =>
    rw [List.nil_append, readEntries, hv]
    rfl
  | cons w before ih =>
    obtain ⟨⟨e, he⟩, hbefore⟩ := List.forall_mem_cons.mp hbefore
    rw [List.cons_append, readEntries, he]
    simp only [ih (index + 1) hbefore, List.length_cons, Nat.add_assoc, Nat.add_comm 1]
    rfl

namespace FilterSet

theorem ofJson_of_get {v : Json} {entries : List Json}
    (h : v.get? "filterSet" = some (.array entries)) :
    ofJson v = (readEntries 0 entries).map FilterSet.mk := by
  cases v with
  | object members =>
    have hlookup : members.lookup "filterSet" = some (.array entries) := h
    simp only [ofJson, hlookup]
  | _ => cases h

theorem ofJson_of_not_get {v : Json}
    (h : ∀ entries, v.get? "filterSet" ≠ some (.array entries)) :
    ∃ fault, ofJson v = .error fault ∧ fault.report.code = .failedToParse := by
  unfold ofJson
  split
  · next members =>
    split
    · next entries hlookup => exact absurd hlookup (h entries)
    · exact ⟨_, rfl, rfl⟩
    · exact ⟨_, rfl, rfl⟩
  · exact ⟨_, rfl, rfl⟩

/-- A set is accepted if it has a list of well-formed entries. If it has no list the set itself is
at fault, and otherwise the first entry that is not well-formed, as the report says, with the code
of what is wrong there. -/
theorem ofJson_classifies {v : Json} (hobjects : ∀ entries,
      v.get? "filterSet" = some (.array entries) → ∀ entry ∈ entries, entry.CombinesObjects) :
    ((∃ s, ofJson v = .ok s) ↔ ∃ entries, v.get? "filterSet" = some (.array entries) ∧
      ∀ entry ∈ entries, entry.IsEntry) ∧
    ((∀ entries, v.get? "filterSet" ≠ some (.array entries)) →
      ∃ fault, ofJson v = .error fault ∧ fault.report.code = .failedToParse) ∧
    ∀ before entry after, v.get? "filterSet" = some (.array (before ++ entry :: after)) →
      (∀ e ∈ before, e.IsEntry) → ¬ entry.IsEntry →
      ∃ fault, ofJson v = .error fault ∧
        fault.report.operation = some s!"parsing filterSet[{before.length}]" ∧
        ∀ code, entry.OffendsAsEntry code ↔ code = fault.report.code := by
  have hreads {entries : List Json} (h : v.get? "filterSet" = some (.array entries)) :
      ∀ entry ∈ entries, Reads (FilterEntry.ofJson entry) ↔ entry.IsEntry :=
    fun entry hentry => (FilterEntry.judges (hobjects entries h entry hentry)).reads_iff
  refine ⟨⟨fun hread => ?_, ?_⟩, ofJson_of_not_get, ?_⟩
  · by_cases hnone : ∀ entries, v.get? "filterSet" ≠ some (.array entries)
    · obtain ⟨s, hs⟩ := hread
      obtain ⟨fault, hfault, -⟩ := ofJson_of_not_get hnone
      rw [hs] at hfault
      cases hfault
    · rw [not_forall_not] at hnone
      obtain ⟨entries, h⟩ := hnone
      rw [ofJson_of_get h] at hread
      have hall := (reads_readEntries_iff 0).mp (reads_map_iff.mp hread)
      exact ⟨entries, h, fun entry hentry => (hreads h entry hentry).mp (hall entry hentry)⟩
  · rintro ⟨entries, h, hall⟩
    rw [ofJson_of_get h]
    refine reads_map_iff.mpr ((reads_readEntries_iff 0).mpr fun entry hentry => ?_)
    exact (hreads h entry hentry).mpr (hall entry hentry)
  · intro before entry after h hbefore hentry
    have hjudges := FilterEntry.judges (hobjects _ h entry (by simp))
    obtain ⟨hentry', -⟩ | ⟨-, fault, hfault, hcode⟩ := hjudges
    · exact absurd hentry' hentry
    · have hread := readEntries_eq_error 0 after
        (fun e he => (hreads h e (by simp [he])).mpr (hbefore e he)) hfault
      refine ⟨.entry before.length fault, ?_, rfl, hcode⟩
      rw [ofJson_of_get h, hread, Nat.zero_add]
      rfl

/-- The operator is unknown and there is nothing to combine; a later entry is no object. -/
theorem ofJson_classifies_unknown_operator :
    let sea : Json := .object [("key", .string "title"), ("operation", .string "MATCHES"),
      ("value", .string "sea")]
    let either : Json := .object [("booleanOperation", .string "XOR"), ("filters", .array [])]
    let v : Json := .object [("filterSet", .array [sea, either, .null])]
    (∀ entries, v.get? "filterSet" = some (.array entries) →
      ∀ entry ∈ entries, entry.CombinesObjects) ∧
    ∃ fault, ofJson v = .error fault ∧
      fault.report.operation = some "parsing filterSet[1]" ∧
      fault.report.code = .operationNotSupported := by
  intro sea either v
  have hobjects : ∀ entries, v.get? "filterSet" = some (.array entries) →
      ∀ entry ∈ entries, entry.CombinesObjects := by
    intro entries h entry hentry operator filters hoperator hfilters f hf
    cases h
    simp only [List.mem_cons, List.not_mem_nil, or_false] at hentry
    rcases hentry with rfl | rfl | rfl
    · cases hoperator
    · cases hfilters
      cases hf
    · cases hoperator
  have hsea : sea.IsEntry := by
    refine (Json.isEntry_of_none rfl).mpr
      ⟨"title", .equals, ⟨rfl, rfl, ?_, ?_⟩, by decide +kernel, "sea", rfl⟩
    · simp
    · simp
  have hunknown : either.OffendsAsEntry .operationNotSupported := by
    have hshape : Concatenation.HasShape [("booleanOperation", .string "XOR"),
        ("filters", .array [])] "XOR" [] := ⟨rfl, .inl rfl, by simp, by simp⟩
    refine .concatenation rfl (.operator hshape fun combinator => ?_)
    cases combinator <;> decide
  have heither : ¬ either.IsEntry :=
    (FilterEntry.judges (hobjects _ rfl either (by simp))).not_accepted hunknown
  obtain ⟨-, -, hfirst⟩ := ofJson_classifies hobjects
  obtain ⟨fault, hfault, hplace, hcode⟩ :=
    hfirst [sea] either [.null] rfl (by simpa using hsea) heither
  exact ⟨hobjects, fault, hfault, hplace.trans (by decide +kernel), ((hcode _).mp hunknown).symm⟩

end FilterSet

end DocumentStore
