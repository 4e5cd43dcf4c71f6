import DocumentStore.Proofs.Collection.Operations
import DocumentStore.Proofs.Filter.Compiled
import DocumentStore.Proofs.Identifier
import DocumentStore.Proofs.Traversal
import DocumentStore.Proofs.Value.Write
import Mathlib.Data.List.Nodup

/-! Identifiers of stored documents. No update changes an identifier unless it takes one out by
name, and among documents that have one the queries by identifier are never refused. -/

namespace DocumentStore

namespace Value

theorem asObjectId?_setAt (path : FieldPath) (v : Value) (segment : String)
    (rest : List String) (w : Value) :
    (setAt path v (segment :: rest) w).2.asObjectId? = w.asObjectId? := by
  cases w with
  | document fields =>
    unfold setAt
    split <;> rfl
  | array items =>
    unfold setAt
    split
    · rfl
    · split
      · rfl
      · dsimp only
        split <;> rfl
  | _ => rfl

theorem asObjectId?_withChild (v : Value) (segment : String) (u : Value) :
    (v.withChild segment u).asObjectId? = v.asObjectId? := by
  cases v <;> rfl

theorem asObjectId?_withoutChild (v : Value) (segment : String) :
    (v.withoutChild segment).asObjectId? = v.asObjectId? := by
  cases v <;> rfl

theorem asObjectId?_removeAt (segments : List String) (w : Value) :
    (removeAt segments w).2.asObjectId? = w.asObjectId? := by
  cases segments with
  | nil => rw [removeAt]
  | cons segment rest =>
    cases hchild : child w segment with
    | none => rw [removeAt_of_child_none hchild]
    | some next =>
      by_cases hrest : rest = []
      · subst hrest
        rw [removeAt_last, asObjectId?_withoutChild]
      · rw [removeAt_of_child hchild hrest, asObjectId?_withChild]

end Value

namespace Document

theorem id?_eq_ok_iff {d : Document} {id : ObjectId} :
    d.id? = .ok id ↔ get d idKey = some (.objectId id) := by
  unfold id?
  cases get d idKey with
  | none => simp
  | some v => cases v <;> simp [Value.asObjectId?]

theorem id?_congr {d d' : Document} (h : get d' idKey = get d idKey) : d'.id? = d.id? := by
  rw [id?, id?, h]

theorem get_setPath_of_ne (d : Document) {path : FieldPath} {key : String} (v : Value)
    (h : path.segments.head? ≠ some key) : get (setPath d path v).2 key = get d key := by
  unfold setPath
  split
  · rfl
  · next segment hsegments =>
    rw [hsegments] at h
    exact get_insert_of_ne d _ (fun e => h (by rw [e]; rfl))
  · next segment rest _ hsegments =>
    rw [hsegments] at h
    exact get_insert_of_ne d _ (fun e => h (by rw [e]; rfl))

theorem get_removePath_of_ne (d : Document) {path : FieldPath} {key : String}
    (h : path.segments.head? ≠ some key) : get (removePath d path).2 key = get d key := by
  unfold removePath
  split
  · rfl
  · next segment hsegments =>
    rw [hsegments] at h
    exact get_erase_of_ne d (fun e => h (by rw [e]; rfl))
  · next segment rest _ hsegments =>
    rw [hsegments] at h
    split
    · rfl
    · exact get_insert_of_ne d _ (fun e => h (by rw [e]; rfl))

theorem setField_eq_ok_iff {d d' : Document} {entry : String × Value} :
    setField d entry = .ok d' ↔ (FieldPath.ofString entry.1).isIdentifier = false ∧
      setPath d (.ofString entry.1) entry.2 = (none, d') := by
  unfold setField
  dsimp only
  cases hident : (FieldPath.ofString entry.1).isIdentifier with
  | true => simp
  | false =>
    rcases setPath d (.ofString entry.1) entry.2 with ⟨fault, d''⟩
    cases fault <;> simp

theorem id?_insert {d : Document} {key : String} {v : Value}
    (h : key = idKey → v.asObjectId? = (get d key).bind Value.asObjectId?) :
    (insert d key v).id? = d.id? := by
  by_cases hkey : key = idKey
  · subst hkey
    rw [id?, id?, get_insert_self, Option.bind_some, h rfl]
  · exact id?_congr (get_insert_of_ne d v (Ne.symm hkey))

theorem ne_idKey_of_segments {path : FieldPath} {segment : String}
    (h : path.isIdentifier = false) (hsegments : path.segments = [segment]) : segment ≠ idKey := by
  rintro rfl
  rw [FieldPath.isIdentifier, hsegments] at h
  simp at h

/-- What is written below an identifier, or below what stands in its place, makes no identifier of
it and leaves none where there was one. -/
theorem id?_setPath (d : Document) {path : FieldPath} (v : Value)
    (h : path.isIdentifier = false) : (setPath d path v).2.id? = d.id? := by
  unfold setPath
  split
  · rfl
  · next segment hsegments =>
    exact id?_insert fun hkey => absurd hkey (ne_idKey_of_segments h hsegments)
  · next segment rest hrest hsegments =>
    cases rest with
    | nil => exact absurd rfl hrest
    | cons next rest =>
      refine id?_insert fun _ => ?_
      rw [Value.asObjectId?_setAt]
      cases get d segment <;> rfl

theorem id?_removePath (d : Document) {path : FieldPath} (h : path.isIdentifier = false) :
    (removePath d path).2.id? = d.id? := by
  unfold removePath
  split
  · rfl
  · next segment hsegments =>
    exact id?_congr (get_erase_of_ne d (Ne.symm (ne_idKey_of_segments h hsegments)))
  · next segment rest hrest hsegments =>
    split
    · rfl
    · next slot hslot =>
      refine id?_insert fun _ => ?_
      rw [Value.asObjectId?_removeAt, hslot]
      rfl

theorem id?_removePath_of_isIdentifier (d : Document) {path : FieldPath}
    (h : path.isIdentifier = true) : (removePath d path).2.id? = .error .identifierKind := by
  have hsegments : path.segments = [idKey] := by simpa [FieldPath.isIdentifier] using h
  simp [removePath, hsegments, id?, get_erase_self]

/-- Fields of which one is the identifier, however it is spelled. -/
def namesId (fields : Document) : Bool :=
  fields.any (fun entry => (FieldPath.ofString entry.1).isIdentifier)

/-- An update that names the identifier among what it takes out. -/
def takesId (update : Document) : Bool :=
  update.any (fun (operator, arg) => operator == "$unset" && arg.asDocument?.any namesId)

theorem takesId_cons_set (arg : Value) (rest : Document) :
    takesId (("$set", arg) :: rest) = takesId rest := rfl

theorem takesId_cons_unset (fields rest : Document) :
    takesId (("$unset", .document fields) :: rest) = (namesId fields || takesId rest) := rfl

theorem id?_foldlM_setField {d d' : Document} {fields : Document}
    (h : fields.foldlM setField d = .ok d') : d'.id? = d.id? := by
  induction fields generalizing d with
  | nil =>
    cases h
    rfl
  | cons entry fields ih =>
    obtain ⟨next, hnext, h⟩ := Traversal.bind_eq_ok_iff.mp h
    obtain ⟨hident, hset⟩ := setField_eq_ok_iff.mp hnext
    have hid := id?_setPath d entry.2 hident
    rw [hset] at hid
    exact (ih h).trans hid

theorem id?_foldl_unsetField (d fields : Document) : (fields.foldl unsetField d).id? =
    if namesId fields then .error .identifierKind else d.id? := by
  induction fields generalizing d with
  | nil => rfl
  | cons entry fields ih =>
    rw [List.foldl_cons, ih, unsetField, namesId, namesId, List.any_cons]
    cases hident : (FieldPath.ofString entry.1).isIdentifier with
    | true =>
      rw [id?_removePath_of_isIdentifier d hident]
      simp
    | false => rw [id?_removePath d hident, Bool.false_or]

/-- What an update leaves of an identifier is said by the update alone. -/
theorem id?_update {d d' u : Document} (h : update d u = .ok d') :
    d'.id? = if u.takesId then .error .identifierKind else d.id? := by
  induction u generalizing d with
  | nil =>
    cases h
    rfl
  | cons entry rest ih =>
    obtain ⟨operator, arg⟩ := entry
    unfold update at h
    split at h
    · next fields =>
      obtain ⟨next, hnext, h⟩ := Traversal.bind_eq_ok_iff.mp h
      rw [ih h]
      unfold applyOperator at hnext
      split at hnext
      · rw [takesId_cons_set, id?_foldlM_setField hnext]
      · cases hnext
        rw [takesId_cons_unset, id?_foldl_unsetField]
        cases takesId rest <;> simp
      · cases hnext
    · cases h

/-- An update that takes out nothing of an identifier. -/
def SparesId (update : Document) : Prop :=
  ∀ fields, ("$unset", Value.document fields) ∈ update →
    ∀ entry ∈ fields, (FieldPath.ofString entry.1).isWithinIdentifier = false

theorem SparesId.takesId_eq_false {u : Document} (h : SparesId u) : u.takesId = false := by
  refine List.any_eq_false.mpr ?_
  rintro ⟨operator, arg⟩ hentry htakes
  simp only [Bool.and_eq_true, beq_iff_eq, Option.any_eq_true, namesId, List.any_eq_true] at htakes
  obtain ⟨rfl, fields, hfields, entry, hmem, hident⟩ := htakes
  have harg : arg = .document fields := by cases arg <;> simp_all [Value.asDocument?]
  have hwithin := h fields (harg ▸ hentry) entry hmem
  have hsegments : FieldPath.split entry.1 = [idKey] := by
    simpa [FieldPath.isIdentifier] using hident
  simp [FieldPath.isWithinIdentifier, hsegments] at hwithin

/-- Whether a document has one of several identifiers. -/
def hasIdIn (ids : List ObjectId) (d : Document) : Bool :=
  d.id?.toOption.any ids.contains

theorem hasIdIn_of_id? {d : Document} {id : ObjectId} (ids : List ObjectId) (h : d.id? = .ok id) :
    d.hasIdIn ids = ids.contains id := by
  rw [hasIdIn, h]
  rfl

end Document

namespace Query

theorem reached_id {d : Document} {id : ObjectId} (h : d.id? = .ok id) :
    d.reached (.ofString idKey) = [.objectId id] := by
  have hsegments : (FieldPath.ofString idKey).segments = [idKey] := by decide +kernel
  rw [Document.reached, hsegments]
  simp only [Value.reached, Value.steps, Document.id?_eq_ok_iff.mp h, Option.toList_some,
    List.flatMap_cons, List.flatMap_nil, List.append_nil, Value.ends]

theorem equalsAny_id (id id' : ObjectId) :
    Value.equalsAny [.objectId id] (.objectId id') = (id == id') := by
  simp [Value.equalsAny, Value.equals_objectId, Value.asObjectId?]

/-- The query for an identifier is refused by no document. -/
theorem matches_byId_eq (d : Document) (id : ObjectId) :
    d.matches (byId id) =
      .ok (Value.equalsAny (d.reached (.ofString idKey)) (.objectId id)) := by
  have hkey : isOperatorName idKey = false := by decide
  have hquery : byId id = Filter.equality idKey false (.objectId id) := rfl
  rw [Document.matches, matchesWithin, hquery,
    Filter.matchesAll_equality _ _ _ _ _ rfl rfl, atKey_of_field _ hkey]
  exact congrArg Except.ok (Bool.xor_false _)

theorem matches_byId_congr {d d' : Document} (h : Document.get d' idKey = Document.get d idKey)
    (id : ObjectId) : d'.matches (byId id) = d.matches (byId id) := by
  have hsegments : (FieldPath.ofString idKey).segments = [idKey] := by decide +kernel
  have hreached : d'.reached (.ofString idKey) = d.reached (.ofString idKey) := by
    rw [Document.reached, Document.reached, hsegments]
    simp only [Value.reached, Value.steps, h]
  rw [matches_byId_eq, matches_byId_eq, hreached]

theorem matches_byId {d : Document} {id' : ObjectId} (h : d.id? = .ok id') (id : ObjectId) :
    d.matches (byId id) = .ok (d.hasIdIn [id]) := by
  rw [matches_byId_eq, reached_id h, equalsAny_id, Document.hasIdIn_of_id? _ h]
  simp [beq_eq_decide]

/-- The query for several identifiers is refused by no document. -/
theorem matches_byIds_eq (d : Document) (ids : List ObjectId) : d.matches (byIds ids) =
    .ok (ids.any (fun id => Value.equalsAny (d.reached (.ofString idKey)) (.objectId id))) := by
  have hkey : isOperatorName idKey = false := by decide
  rw [byIds, matches_operator _ _ hkey (by decide) (by decide)]
  simp only [matchesOperator, List.any_map, Function.comp_def]

theorem matches_byIds {d : Document} {id : ObjectId} (h : d.id? = .ok id) (ids : List ObjectId) :
    d.matches (byIds ids) = .ok (d.hasIdIn ids) := by
  rw [matches_byIds_eq, reached_id h, Document.hasIdIn_of_id? _ h]
  simp only [equalsAny_id]
  exact congrArg Except.ok List.any_beq

end Query

namespace Collection

/-- The identifiers of a collection, in the order of its documents. -/
def HasIds (c : Collection) (ids : List ObjectId) : Prop :=
  c.documents.map Document.id? = ids.map .ok

namespace HasIds

variable {c : Collection} {ids : List ObjectId}

theorem exists_id (h : c.HasIds ids) {d : Document} (hd : d ∈ c.documents) :
    ∃ id ∈ ids, d.id? = .ok id := by
  have hmem : d.id? ∈ ids.map Except.ok := h ▸ List.mem_map_of_mem hd
  obtain ⟨id, hid, he⟩ := List.mem_map.mp hmem
  exact ⟨id, hid, he.symm⟩

theorem holdsId_of_notMem (h : c.HasIds ids) {id : ObjectId} (hid : id ∉ ids) :
    c.holdsId id = false := by
  refine List.any_eq_false.mpr ?_
  intro d hd
  obtain ⟨id', hid', he⟩ := h.exists_id hd
  have hne : id' ≠ id := fun e => hid (e ▸ hid')
  simp [Document.id?_eq_ok_iff.mp he, Value.same, hne]

theorem notMem_of_holdsId (h : c.HasIds ids) {id : ObjectId} (hid : c.holdsId id = false) :
    id ∉ ids := by
  intro hmem
  have hstored : Except.ok id ∈ c.documents.map Document.id? := h ▸ List.mem_map_of_mem hmem
  obtain ⟨d, hd, he⟩ := List.mem_map.mp hstored
  have hsame := List.any_eq_false.mp hid d hd
  rw [Document.id?_eq_ok_iff.mp he] at hsame
  simp [Value.same] at hsame

theorem filter (h : c.HasIds ids) (named : List ObjectId) :
    (c.documents.filter (fun d => !d.hasIdIn named)).map Document.id? =
      (ids.filter (fun id => !named.contains id)).map .ok := by
  let unnamed (r : Except QueryFault ObjectId) : Bool := !r.toOption.any named.contains
  have hdocuments : (fun d : Document => !d.hasIdIn named) = unnamed ∘ Document.id? := rfl
  have hids : (fun id => !named.contains id) = unnamed ∘ Except.ok := rfl
  rw [hdocuments, ← List.filter_map, h, hids, ← List.filter_map]

theorem matches_byId (h : c.HasIds ids) (id : ObjectId) {d : Document} (hd : d ∈ c.documents) :
    d.matches (Query.byId id) = .ok (d.hasIdIn [id]) := by
  obtain ⟨id', -, he⟩ := h.exists_id hd
  exact Query.matches_byId he id

theorem exists_document (h : c.HasIds ids) {id : ObjectId} (hid : id ∈ ids) :
    ∃ d ∈ c.documents, d.id? = .ok id := by
  have hmem : Except.ok id ∈ c.documents.map Document.id? := h ▸ List.mem_map_of_mem hid
  exact List.mem_map.mp hmem

theorem eq_of_id? (h : c.HasIds ids) (hn : ids.Nodup) {d d' : Document} (hd : d ∈ c.documents)
    (hd' : d' ∈ c.documents) (hid : d.id? = d'.id?) : d = d' := by
  have hdistinct : (c.documents.map Document.id?).Nodup :=
    h ▸ List.Nodup.map (fun _ _ => Except.ok.inj) hn
  exact List.inj_on_of_nodup_map hdistinct hd hd' hid

/-- Where identifiers are distinct the query for one of them has one answer. -/
theorem splitFirst_of_mem (h : c.HasIds ids) (hn : ids.Nodup) {d : Document}
    (hd : d ∈ c.documents) {id : ObjectId} (hid : d.id? = .ok id) :
    ∃ before after, splitFirst (Query.byId id) c.documents = .ok (some (before, d, after)) ∧
      ∀ other ∈ before ++ after, other.hasIdIn [id] = false := by
  obtain ⟨before, after, hds⟩ := List.append_of_mem hd
  have hdistinct : (c.documents.map Document.id?).Nodup :=
    h ▸ List.Nodup.map (fun _ _ => Except.ok.inj) hn
  rw [hds, List.map_append, List.map_cons, List.nodup_middle, List.nodup_cons, ← List.map_append]
    at hdistinct
  have hothers : ∀ other ∈ before ++ after, other.hasIdIn [id] = false := by
    intro other hother
    have hstored : other ∈ c.documents := by
      rw [hds, List.mem_append, List.mem_cons]
      exact (List.mem_append.mp hother).imp_right .inr
    obtain ⟨id', -, hid'⟩ := h.exists_id hstored
    rw [Document.hasIdIn_of_id? _ hid', List.contains_eq_mem, decide_eq_false_iff_not,
      List.mem_singleton]
    rintro rfl
    exact hdistinct.1 (hid ▸ hid' ▸ List.mem_map_of_mem hother)
  have hanswers : ∀ other ∈ c.documents, other.matches (Query.byId id) = .ok (other.hasIdIn [id]) :=
    fun other hother => h.matches_byId id hother
  refine ⟨before, after, splitFirst_eq_some_iff.mpr ⟨hds, ?_, ?_⟩, hothers⟩
  · intro other hother
    rw [hanswers other (by simp [hds, hother]), hothers other (by simp [hother])]
  · rw [hanswers d hd, Document.hasIdIn_of_id? _ hid]
    simp

theorem splitFirst_of_notMem (h : c.HasIds ids) {id : ObjectId} (hid : id ∉ ids) :
    splitFirst (Query.byId id) c.documents = .ok none := by
  rcases splitFirst_of_answers (fun d hd => h.matches_byId id hd) with
    ⟨hs, -⟩ | ⟨before, found, after, -, hds, -, hfound⟩
  · exact hs
  · obtain ⟨id', hid', he⟩ := h.exists_id (d := found) (by rw [hds]; simp)
    rw [Document.hasIdIn_of_id? _ he, List.contains_eq_mem, decide_eq_true_eq,
      List.mem_singleton] at hfound
    exact absurd (hfound ▸ hid') hid

theorem matches_byIds (h : c.HasIds ids) (named : List ObjectId) {d : Document}
    (hd : d ∈ c.documents) : d.matches (Query.byIds named) = .ok (d.hasIdIn named) := by
  obtain ⟨id', -, he⟩ := h.exists_id hd
  exact Query.matches_byIds he named

end HasIds

end Collection

end DocumentStore
