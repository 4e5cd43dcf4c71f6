import DocumentStore.Proofs.Collection.Identity
import DocumentStore.Proofs.Entity.Schema
import DocumentStore.Proofs.FieldPath.Canonical
import DocumentStore.Proofs.Value.Write

/-! Updates of documents that follow a schema. A write at a path puts one value into the document,
the one at the first segment, so that the schema has to accept this value alone. -/

namespace DocumentStore

theorem split_updatedAtKey : FieldPath.split updatedAtKey = [updatedAtKey] := by
  decide +kernel

namespace Document

variable {d : Document} {path : FieldPath} {key next : String} {rest : List String}

theorem removePath_of_segments (h : path.segments = key :: next :: rest) {slot : Value}
    (hslot : get d key = some slot) :
    (removePath d path).2 = insert d key (slot.removeAt (next :: rest)).2 := by
  simp [removePath, h, hslot]

theorem eq_insert_of_setField {d' : Document} {entry : String × Value}
    (h : (FieldPath.ofString entry.1).segments = key :: rest) (hset : setField d entry = .ok d') :
    d' = insert d key
      (Value.setAt (.ofString entry.1) entry.2 rest ((get d key).getD (.document []))).2 := by
  obtain ⟨-, hset⟩ := setField_eq_ok_iff.mp hset
  rw [setPath_cons h, Prod.mk.injEq] at hset
  exact hset.2.symm

theorem setField_of_split (d : Document) {key : String} (v : Value)
    (h : FieldPath.split key = [key]) (hid : key ≠ idKey) :
    setField d (key, v) = .ok (insert d key v) := by
  rw [setField_eq_ok_iff]
  exact ⟨by simp [FieldPath.isIdentifier, h, hid], by simp [setPath, h]⟩

/-- An update that names fields writes them one after the other. -/
theorem foldlM_setField_of_split {fields : Document}
    (h : ∀ entry ∈ fields, FieldPath.split entry.1 = [entry.1] ∧ entry.1 ≠ idKey) (d : Document) :
    fields.foldlM setField d = .ok (insertAll d fields) := by
  induction fields generalizing d with
  | nil => rfl
  | cons entry fields ih =>
    obtain ⟨⟨hsplit, hid⟩, hfields⟩ := List.forall_mem_cons.mp h
    rw [List.foldlM_cons, setField_of_split d entry.2 hsplit hid]
    exact ih hfields _

end Document

namespace Schema

variable {σ : Schema} {d d' : Document}

/-- What `$set` writes under the name of its field. -/
def Sets (σ : Schema) (key : String) (v : Value) : Prop :=
  FieldPath.split key = [key] ∧ σ.accepts key v

/-- An entry of `$set` that leaves every document of the schema in it. -/
def Permits (σ : Schema) (entry : String × Value) : Prop :=
  ∀ d d', σ.Holds d → Document.setField d entry = .ok d' → σ.Holds d'

theorem Sets.permits {key : String} {v : Value} (h : σ.Sets key v) : σ.Permits (key, v) := by
  intro d d' hd hset
  have hsegments : (FieldPath.ofString (key, v).1).segments = [key] := h.1
  have hd' : d' = Document.insert d key v := Document.eq_insert_of_setField hsegments hset
  exact hd' ▸ hd.insert h.2

theorem Holds.foldlM_setField {fields : Document} (h : σ.Holds d)
    (hfields : ∀ entry ∈ fields, σ.Permits entry)
    (hset : fields.foldlM Document.setField d = .ok d') : σ.Holds d' := by
  induction fields generalizing d with
  | nil =>
    cases hset
    exact h
  | cons entry fields ih =>
    obtain ⟨next, hnext, hset⟩ := Traversal.bind_eq_ok_iff.mp hset
    exact ih (hfields entry (by simp) d next h hnext) (fun e he => hfields e (by simp [he])) hset

theorem Holds.update_set {fields : Document} (h : σ.Holds d)
    (hfields : ∀ entry ∈ fields, σ.Permits entry)
    (hu : Document.update d [("$set", .document fields)] = .ok d') : σ.Holds d' := by
  obtain ⟨next, hnext, hu⟩ := Traversal.bind_eq_ok_iff.mp hu
  cases hu
  exact h.foldlM_setField hfields hnext

/-- One field is taken out and another is written. -/
theorem holds_update_unset_set {path : FieldPath} {key : String} {v text : Value}
    (hremove : σ.Holds (Document.removePath d path).2) (hset : σ.Sets key v)
    (hu : Document.update d [("$unset", .document [(path.text, text)]),
      ("$set", .document [(key, v)])] = .ok d') : σ.Holds d' := by
  obtain ⟨next, hnext, hu⟩ := Traversal.bind_eq_ok_iff.mp hu
  have hremoved : next = (Document.removePath d path).2 := by
    rw [← Except.ok.inj hnext]
    exact congrArg (fun p => (Document.removePath d p).2) path.ofString_text
  refine Holds.update_set (hremoved ▸ hremove) ?_ hu
  intro entry hentry
  obtain rfl := List.mem_singleton.mp hentry
  exact hset.permits

end Schema

end DocumentStore
