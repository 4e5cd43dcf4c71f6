import DocumentStore.Filter.Writing
import DocumentStore.Proofs.FieldPath.Canonical
import DocumentStore.Proofs.Filter.Valid

/-! Filter sets written and read back. A valid set is read back as itself, and a set that is not
valid is refused as an invalid filter, whichever of its parts is at fault. -/

namespace DocumentStore

variable {α β ε ε' : Type}

/-- Reading what was written gives the same thing if it is valid, and a fault of the expected sort
otherwise. -/
def ReadsBack (valid : Prop) (expected : ε → Prop) (a : α) (result : Except ε α) : Prop :=
  (valid ∧ result = .ok a) ∨ ¬ valid ∧ ∃ fault, expected fault ∧ result = .error fault

namespace ReadsBack

variable {valid valid' : Prop} {expected : ε → Prop} {a : α} {result : Except ε α}

theorem read (hv : valid) : ReadsBack valid expected a (.ok a) :=
  .inl ⟨hv, rfl⟩

theorem refuse {fault : ε} (hv : ¬ valid) (he : expected fault) :
    ReadsBack valid expected a (.error fault) :=
  .inr ⟨hv, fault, he, rfl⟩

theorem ok (h : ReadsBack valid expected a result) (hv : valid) : result = .ok a := by
  rcases h with ⟨-, hr⟩ | ⟨hn, -⟩
  · exact hr
  · exact absurd hv hn

theorem error (h : ReadsBack valid expected a result) (hv : ¬ valid) :
    ∃ fault, expected fault ∧ result = .error fault := by
  rcases h with ⟨hv', -⟩ | ⟨-, hr⟩
  · exact absurd hv' hv
  · exact hr

theorem congr (h : ReadsBack valid expected a result) (hv : valid ↔ valid') :
    ReadsBack valid' expected a result := by
  rwa [show valid = valid' from propext hv] at h

theorem map (g : α → β) (h : ReadsBack valid expected a result) :
    ReadsBack valid expected (g a) (result.map g) := by
  rcases h with ⟨hv, rfl⟩ | ⟨hv, fault, he, rfl⟩
  · exact read hv
  · exact refuse hv he

theorem mapM {encode : α → β} {decode : β → Except ε α} {valid : α → Prop} {xs : List α}
    (h : ∀ x ∈ xs, ReadsBack (valid x) expected x (decode (encode x))) :
    ReadsBack (∀ x ∈ xs, valid x) expected xs ((xs.map encode).mapM decode) := by
  induction xs with
  | nil => exact read (by simp)
  | cons x xs ih =>
    rw [List.map_cons, List.mapM_cons]
    rcases h x (by simp) with ⟨hv, hx⟩ | ⟨hv, fault, he, hx⟩
    · rw [hx]
      rcases ih (fun y hy => h y (by simp [hy])) with ⟨hvs, hxs⟩ | ⟨hvs, fault, he, hxs⟩
      · rw [hxs]
        exact read (List.forall_mem_cons.mpr ⟨hv, hvs⟩)
      · rw [hxs]
        exact refuse (fun hall => hvs (List.forall_mem_cons.mp hall).2) he
    · rw [hx]
      exact refuse (fun hall => hv (List.forall_mem_cons.mp hall).1) he

end ReadsBack

theorem readCoordinate_float (x : Float) :
    readCoordinate (Json.float x) = if x.isFinite then some x else none := by
  unfold Json.float
  by_cases h : x.isFinite = true
  · rw [if_pos h, if_pos h]
    exact Option.filter_eq_some_iff.mpr ⟨rfl, h⟩
  · rw [if_neg h, if_neg h]
    rfl

theorem Position.readsBack (p : Position) :
    ReadsBack p.Valid (fun _ => True) p (ofJson p.toJson) := by
  simp only [toJson, ofJson, readCoordinate_float]
  by_cases hlon : p.longitude.isFinite = true
  · by_cases hlat : p.latitude.isFinite = true
    · simp only [hlon, hlat, if_true]
      by_cases hr : p.inRange = true
      · obtain ⟨hlons, hlats⟩ := inRange_iff.mp hr
        rw [if_pos hr]
        exact .read ⟨hlon, hlat, hlons, hlats⟩
      · rw [if_neg hr]
        exact .refuse (fun hv => hr (inRange_iff.mpr ⟨hv.longitudeRange, hv.latitudeRange⟩)) trivial
    · simp only [hlon, hlat, if_true]
      exact .refuse (fun hv => hlat hv.latitudeFinite) trivial
  · simp only [hlon]
    exact .refuse (fun hv => hlon hv.longitudeFinite) trivial

theorem toInt64?_ofInt64 (n : Int64) : (Json.Numeral.ofInt64 n).toInt64? = some n := by
  unfold Json.Numeral.ofInt64
  by_cases h : 0 ≤ n
  · have hlt := n.toInt_lt
    have hnat : n.toInt.toNat.toUInt64.toNat = n.toInt.toNat := by
      refine UInt64.toNat_ofNat_of_lt ?_
      change _ < 18446744073709551616
      omega
    have hmax : n.toInt.toNat ≤ Int64.maxValue.toNatClampNeg := by
      change _ ≤ 9223372036854775807
      omega
    rw [if_pos h]
    simp only [Json.Numeral.toInt64?, hnat, if_pos hmax]
    exact congrArg some (n.ofNat_toNatClampNeg h)
  · rw [if_neg h]
    rfl

theorem Number.readsBack (kind : OperationKind) (n : Number) :
    ReadsBack n.Valid (fun _ => True) n (readNumber kind n.toJson) := by
  cases n with
  | int n =>
    change ReadsBack _ _ _ (readNumber kind (.number (.ofInt64 n)))
    simp only [readNumber, Number.ofNumeral, toInt64?_ofInt64, Option.isSome_some, Bool.true_or,
      if_true]
    exact .read trivial
  | float x =>
    change ReadsBack (x.isFinite = true) _ _ (readNumber kind (Json.float x))
    unfold Json.float
    by_cases h : x.isFinite = true
    · rw [if_pos h]
      simp only [readNumber, Json.Numeral.toInt64?, Json.Numeral.toFloat, h, Number.ofNumeral,
        Bool.or_true, if_true]
      exact .read trivial
    · rw [if_neg h]
      exact .refuse h trivial

theorem readRadius_readsBack (center : Position) (kilometres : Float) :
    ReadsBack (center.Valid ∧ kilometres.isFinite = true ∧ 0 ≤ kilometres) (fun _ => True)
      (center, kilometres) (readRadius (Operation.radius center kilometres).toJson) := by
  by_cases hf : kilometres.isFinite = true
  · have hread : readRadius (Operation.radius center kilometres).toJson =
        Position.ofJson center.toJson >>= fun center =>
          if !kilometres.isFinite || kilometres < 0 then .error .radiusRange
          else .ok (center, kilometres) := by
      rw [Operation.toJson, Json.float, if_pos hf]
      rfl
    have hnonneg := Double.nonneg_iff_not_neg hf
    rw [hread]
    rcases center.readsBack with ⟨hc, hr⟩ | ⟨hc, fault, -, hr⟩
    · rw [hr]
      change ReadsBack _ _ _ (if !kilometres.isFinite || kilometres < 0 then
        .error OperandFault.radiusRange else .ok (center, kilometres))
      by_cases hn : kilometres < 0
      · rw [if_pos (by simp [hn])]
        exact .refuse (fun hv => hnonneg.mp hv.2.2 hn) trivial
      · rw [if_neg (by simp [hf, hn])]
        exact .read ⟨hc, hf, hnonneg.mpr hn⟩
    · rw [hr]
      exact .refuse (fun hv => hc hv.1) trivial
  · have hread : readRadius (Operation.radius center kilometres).toJson =
        Position.ofJson center.toJson >>= fun _ => .error .radiusKind := by
      rw [Operation.toJson, Json.float, if_neg hf]
      rfl
    rw [hread]
    cases Position.ofJson center.toJson <;> exact .refuse (fun hv => hf hv.2.1) trivial

theorem readRing_readsBack (ring : List Position) :
    ReadsBack (ValidRing ring) (fun _ => True) ring (readRing (Operation.area ring).toJson) := by
  have hread : readRing (Operation.area ring).toJson =
      (ring.map Position.toJson).mapM Position.ofJson >>= fun ring =>
        if ring.length < 4 then .error .ringTooShort
        else if !isClosed ring then .error .ringOpen
        else .ok ring := rfl
  rw [hread]
  rcases ReadsBack.mapM (fun p (_ : p ∈ ring) => p.readsBack) with ⟨hv, hr⟩ | ⟨hv, fault, -, hr⟩
  · rw [hr]
    change ReadsBack _ _ _ (if ring.length < 4 then .error OperandFault.ringTooShort
      else if !isClosed ring then .error .ringOpen else .ok ring)
    by_cases hl : ring.length < 4
    · rw [if_pos hl]
      exact .refuse (fun hr => absurd hr.long (by omega)) trivial
    · rw [if_neg hl]
      cases hc : isClosed ring with
      | false => exact .refuse (fun hr => by simp [hr.closed] at hc) trivial
      | true => exact .read ⟨by omega, hc, hv⟩
  · rw [hr]
    exact .refuse (fun hr => hv hr.vertices) trivial

theorem Operation.readsBack (op : Operation) :
    ReadsBack op.Valid (fun _ => True) op (ofJson op.kind op.toJson) := by
  cases op with
  | contains pattern =>
    change ReadsBack ((Pattern.ofText? {} pattern).isSome = true) _ _
      (Except.map Operation.contains
        (if (Pattern.ofText? {} pattern).isSome then .ok pattern
          else .error OperandFault.notAPattern))
    by_cases h : (Pattern.ofText? {} pattern).isSome = true
    · rw [if_pos h]
      exact .read h
    · rw [if_neg h]
      exact .refuse h trivial
  | equals text => exact .read trivial
  | compare c operand => exact (operand.readsBack (.compare c)).map (Operation.compare c)
  | is flag => exact .read trivial
  | radius center kilometres =>
    exact (readRadius_readsBack center kilometres).map (fun cap => Operation.radius cap.1 cap.2)
  | area ring => exact (readRing_readsBack ring).map Operation.area

def FilterFault.IsInvalid (fault : FilterFault) : Prop :=
  fault.report.code = .invalidFilter

theorem isInvalid_operand (key : FieldPath) (fault : OperandFault) :
    (FilterFault.operand key fault).IsInvalid := by
  cases fault <;> rfl

theorem OperationKind.named?_name (kind : OperationKind) : named? kind.name = some kind := by
  cases kind with
  | compare c => cases c <;> rfl
  | _ => rfl

theorem Combinator.named?_name (combinator : Combinator) :
    named? combinator.name = some combinator := by
  cases combinator <;> rfl

theorem Filter.readsBack (f : Filter) :
    ReadsBack f.Valid FilterFault.IsInvalid f (ofJson f.toJson) := by
  have hread : ofJson f.toJson = FilterFields.toFilter
      ⟨f.key.text, f.operation.kind.name, f.negate, f.operation.toJson⟩ := rfl
  rw [hread, FilterFields.toFilter]
  simp only [OperationKind.named?_name, FieldPath.ofString_text]
  by_cases hk : f.key.isEmpty = true
  · rw [if_pos hk]
    exact .refuse (fun hv => by simp [hv.key] at hk) rfl
  · rw [if_neg hk]
    rcases f.operation.readsBack with ⟨hv, hr⟩ | ⟨hv, fault, -, hr⟩
    · rw [hr]
      exact .read ⟨by simpa using hk, hv⟩
    · rw [hr]
      exact .refuse (fun h => hv h.operation) (isInvalid_operand f.key fault)

theorem Concatenation.readsBack (c : Concatenation) :
    ReadsBack c.Valid FilterFault.IsInvalid c (ofJson c.toJson) := by
  have hread : ofJson c.toJson = ConcatenationFields.toConcatenation
      ⟨c.combinator.name, c.filters.map Filter.toJson⟩ := rfl
  rw [hread, ConcatenationFields.toConcatenation]
  simp only [Combinator.named?_name]
  cases hf : c.filters with
  | nil => exact .refuse (fun hv => hv.nonempty hf) rfl
  | cons f fs =>
    rw [← hf, if_neg (by simp [hf])]
    refine ((ReadsBack.mapM (fun f (_ : f ∈ c.filters) => f.readsBack)).map _).congr ?_
    exact ⟨fun h => ⟨by simp [hf], h⟩, fun h => h.filters⟩

theorem FilterEntry.readsBack (e : FilterEntry) :
    ReadsBack e.Valid FilterFault.IsInvalid e (ofJson e.toJson) := by
  cases e with
  | leaf f => exact f.readsBack.map FilterEntry.leaf
  | concatenation c => exact c.readsBack.map FilterEntry.concatenation

theorem readEntries_readsBack (index : Nat) (entries : List FilterEntry) :
    ReadsBack (∀ e ∈ entries, e.Valid) FilterFault.IsInvalid entries
      (readEntries index (entries.map FilterEntry.toJson)) := by
  induction entries generalizing index with
  | nil => exact .read (by simp)
  | cons e entries ih =>
    rw [List.map_cons, readEntries]
    rcases e.readsBack with ⟨hv, hr⟩ | ⟨hv, fault, he, hr⟩
    · rw [hr]
      refine ((ih (index + 1)).map (e :: ·)).congr ?_
      simp [hv]
    · rw [hr]
      exact .refuse (fun hall => hv (List.forall_mem_cons.mp hall).1) he

theorem FilterSet.readsBack (s : FilterSet) :
    ReadsBack s.Valid FilterFault.IsInvalid s (ofJson s.toJson) :=
  (readEntries_readsBack 0 s.entries).map FilterSet.mk

/-- Reading gives the valid sets and no others: every set that is read is valid, every valid set is
read back from its written form as itself, and the written form of any other set is refused as an
invalid filter. -/
theorem FilterSet.ofJson_exact_on_valid (v : Json) (s : FilterSet) :
    (ofJson v = .ok s → s.Valid) ∧
      (s.Valid → ofJson s.toJson = .ok s) ∧
      (¬ s.Valid → ∃ fault, ofJson s.toJson = .error fault ∧
        fault.report.code = .invalidFilter) := by
  refine ⟨valid_of_ofJson, s.readsBack.ok, ?_⟩
  intro hv
  obtain ⟨fault, hcode, hr⟩ := s.readsBack.error hv
  exact ⟨fault, hr, hcode⟩

theorem FilterSet.ofJson_exact_on_valid_leaf :
    ∃ s t : FilterSet, s.entries.length = 1 ∧ s.Valid ∧ ofJson s.toJson = .ok s ∧ ¬ t.Valid ∧
      ∃ fault, ofJson t.toJson = .error fault ∧ fault.report.code = .invalidFilter := by
  let leaf (x : Float) : FilterEntry :=
    .leaf ⟨.ofString "rows[0].size", true, .compare .gte (.float x)⟩
  have hs : FilterSet.Valid ⟨[leaf 3]⟩ := by
    intro e he
    obtain rfl := List.mem_singleton.mp he
    exact ⟨by decide +kernel, show (3 : Float).isFinite = true by decide +kernel⟩
  have ht : ¬ FilterSet.Valid ⟨[leaf (0 / 0)]⟩ := by
    intro h
    have hx : (0 / 0 : Float).isFinite = true := (h _ List.mem_cons_self).operation
    exact absurd hx (by decide +kernel)
  exact ⟨_, _, rfl, hs, (ofJson_exact_on_valid .null _).2.1 hs, ht,
    (ofJson_exact_on_valid .null _).2.2 ht⟩

end DocumentStore
