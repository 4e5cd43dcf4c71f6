import DocumentStore.Proofs.Entity.Stored
import DocumentStore.Service.Nested

/-! Writes and removals inside records. Nothing compares a value that is written inside a record
with what is read there, so that the record may not be read afterwards. It is if the value is one
that its field accepts, if it goes into data and has no tags, or if the path starts at no field of
records; and a removal may take out all but what is required. -/

namespace DocumentStore.Record

def fieldNames : List String :=
  [idKey, "title", "description", "dataType", "dataSet", "tags", "content", createdAtKey,
    updatedAtKey]

theorem accepts_of_notMem_fieldNames {key : String} (h : key ∉ fieldNames) (v : Value) :
    soundSchema.accepts key v := by
  simp only [fieldNames, List.mem_cons, List.not_mem_nil, or_false, not_or] at h
  obtain ⟨hid, htitle, hdescription, hdataType, hdataSet, htags, hcontent, hcreated, hupdated⟩ := h
  refine accepts_of_ne hcontent ?_
  change model.checkEntity key v = .ok ()
  rw [Model.checkEntity, if_neg hid, if_neg (by simp [hcreated, hupdated])]
  change RecordBody.checkMember key v = .ok ()
  unfold RecordBody.checkMember
  split <;> simp_all

/-- A value that may be written at a path. -/
def AllowsSet (v : Value) (path : FieldPath) : Prop :=
  match path.segments with
  | [] => True
  | "content" :: rest => Content.AllowsSet v rest
  | [key] => schema.accepts key v
  | key :: _ => key ∉ fieldNames

/-- A path whose value may be taken out. -/
def AllowsUnset (path : FieldPath) : Prop :=
  match path.segments with
  | [] => True
  | "content" :: rest => Content.AllowsUnset rest
  | [key] => key ∉ schema.required
  | key :: _ => key ∉ fieldNames

theorem exists_content {d : Document} (h : soundSchema.Holds d) :
    ∃ content, Document.get d "content" = some content ∧ Content.IsSound content := by
  obtain ⟨content, hget⟩ := Option.isSome_iff_exists.mp (h.present "content" (by decide))
  exact ⟨content, hget, (h.accepted _ (Document.mem_of_get hget)).2 rfl⟩

theorem permits_of_allowsSet {v : Value} {path : FieldPath} (h : AllowsSet v path) :
    soundSchema.Permits (path.text, v) := by
  intro d d' hd hset
  have hpath : (FieldPath.ofString (path.text, v).1).segments = path.segments := by
    rw [FieldPath.ofString_text]
  unfold AllowsSet at h
  split at h
  · next hsegments =>
    obtain ⟨-, hset⟩ := Document.setField_eq_ok_iff.mp hset
    have hempty : (Document.setPath d (.ofString path.text) v).1 = some .emptyPath := by
      rw [FieldPath.ofString_text]
      simp [Document.setPath, hsegments]
    cases hempty.symm.trans (congrArg Prod.fst hset)
  · next rest hsegments =>
    obtain ⟨content, hget, hsound⟩ := exists_content hd
    rw [Document.eq_insert_of_setField (hpath.trans hsegments) hset, hget]
    exact hd.insert (accepts_content (hsound.setAt _ h))
  · next key hkey hsegments =>
    rw [Document.eq_insert_of_setField (hpath.trans hsegments) hset]
    exact hd.insert (accepts_of_ne hkey h)
  · next key rest _ _ hsegments =>
    rw [Document.eq_insert_of_setField (hpath.trans hsegments) hset]
    exact hd.insert (accepts_of_notMem_fieldNames h _)

theorem holds_removePath {d : Document} {path : FieldPath} (hd : soundSchema.Holds d)
    (h : AllowsUnset path) : soundSchema.Holds (Document.removePath d path).2 := by
  unfold AllowsUnset at h
  split at h
  · next hsegments => simpa [Document.removePath, hsegments] using hd
  · next rest hsegments =>
    obtain ⟨content, hget, hsound⟩ := exists_content hd
    cases rest with
    | nil => exact h.elim
    | cons next rest =>
      rw [Document.removePath_of_segments hsegments hget]
      exact hd.insert (accepts_content (hsound.removeAt h))
  · next key _ hsegments =>
    have hremoved : (Document.removePath d path).2 = Document.erase d key := by
      simp [Document.removePath, hsegments]
    exact hremoved ▸ hd.erase h
  · next key rest _ hrest hsegments =>
    cases rest with
    | nil => exact (hrest rfl).elim
    | cons next rest =>
      cases hget : Document.get d key with
      | none => simpa [Document.removePath, hsegments, hget] using hd
      | some slot =>
        rw [Document.removePath_of_segments hsegments hget]
        exact hd.insert (accepts_of_notMem_fieldNames h _)

/-- A document after the write of a value inside it. -/
def written (now : Int64) (path : FieldPath) (v : Value) (d : Document) : Document :=
  Document.insert (Document.setPath d path v).2 updatedAtKey (.dateTime now)

/-- A document after the removal of a value inside it. -/
def withoutValue (now : Int64) (path : FieldPath) (d : Document) : Document :=
  Document.insert (Document.removePath d path).2 updatedAtKey (.dateTime now)

/-- The path and the time are written apart. -/
theorem update_setUpdate_eq_ok_iff {path : FieldPath} {key : String} {rest : List String}
    (hpath : path.segments = key :: rest) (hid : key ≠ idKey) (hdate : key ≠ updatedAtKey)
    (now : Int64) (v : Value) (d d' : Document) :
    Document.update d (setUpdate now path v) = .ok d' ↔
      (Document.setPath d path v).1 = none ∧ d' = written now path v d := by
  have hident : path.isIdentifier = false := by simp [FieldPath.isIdentifier, hpath, hid]
  have htext : path.text ≠ updatedAtKey := by
    intro htext
    have hsegments : path.segments = [updatedAtKey] := by
      rw [← split_updatedAtKey, ← htext, ← FieldPath.segments_ofString, path.ofString_text]
    exact hdate (List.cons.inj (hpath.symm.trans hsegments)).1
  have hfields : Document.insert [(path.text, v)] updatedAtKey (.dateTime now) =
      [(path.text, v), (updatedAtKey, .dateTime now)] := by
    simp [Document.insert, htext]
  have hupdate : Document.update d (setUpdate now path v) =
      (Document.setField d (path.text, v)).map
        (Document.insert · updatedAtKey (.dateTime now)) := by
    rw [setUpdate, hfields]
    change ((Document.setField d (path.text, v) >>= fun d =>
      Document.setField d (updatedAtKey, .dateTime now) >>= pure) >>= pure) = _
    cases Document.setField d (path.text, v) with
    | error fault => rfl
    | ok next =>
      change ((Document.setField next (updatedAtKey, .dateTime now) >>= pure) >>= pure) = _
      rw [Document.setField_of_split next _ split_updatedAtKey (by decide)]
      rfl
  rw [hupdate, Document.setField, path.ofString_text, hident]
  simp only [Bool.false_eq_true, if_false, written]
  rcases Document.setPath d path v with ⟨fault, next⟩
  cases fault <;> simp [Except.map, eq_comm]

/-- Whatever is written at a field is stored there. -/
theorem update_setUpdate (d : Document) (now : Int64) (key : String) (v : Value)
    (hkey : FieldPath.split key = [key]) (hid : key ≠ idKey) (hdate : key ≠ updatedAtKey) :
    Document.update d (setUpdate now (.ofString key) v) =
      .ok (Document.insert (Document.insert d key v) updatedAtKey (.dateTime now)) := by
  have hset : Document.setPath d (.ofString key) v = (none, Document.insert d key v) := by
    rw [Document.setPath, FieldPath.segments_ofString, hkey]
  rw [update_setUpdate_eq_ok_iff hkey hid hdate, written, hset]
  exact ⟨rfl, rfl⟩

theorem update_unsetUpdate (now : Int64) (path : FieldPath) (d : Document) :
    Document.update d (unsetUpdate now path) = .ok (withoutValue now path d) := by
  have hremoved : Document.unsetField d (path.text, .string "") = (Document.removePath d path).2 :=
    congrArg (fun p => (Document.removePath d p).2) path.ofString_text
  change ((Document.setField (Document.unsetField d (path.text, .string ""))
    (updatedAtKey, .dateTime now) >>= pure) >>= pure) = _
  rw [hremoved, Document.setField_of_split _ _ split_updatedAtKey (by decide)]
  rfl

theorem holds_setUpdate {d d' : Document} {now : Int64} {path : FieldPath} {v : Value}
    (hd : soundSchema.Holds d) (h : AllowsSet v path)
    (hu : Document.update d (setUpdate now path v) = .ok d') : soundSchema.Holds d' := by
  refine hd.update_set (fun entry hentry => ?_) hu
  rcases Document.mem_of_mem_insert hentry with rfl | hentry
  · exact (keeps.sets_updatedAt now).permits
  · obtain rfl := List.mem_singleton.mp hentry
    exact permits_of_allowsSet h

theorem holds_unsetUpdate {d d' : Document} {now : Int64} {path : FieldPath}
    (hd : soundSchema.Holds d) (h : AllowsUnset path)
    (hu : Document.update d (unsetUpdate now path) = .ok d') : soundSchema.Holds d' :=
  Schema.holds_update_unset_set (holds_removePath hd h) (keeps.sets_updatedAt now) hu

end DocumentStore.Record
