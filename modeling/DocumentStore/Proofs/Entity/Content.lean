import DocumentStore.Entity.Content
import DocumentStore.Proofs.Entity.Schema
import DocumentStore.Proofs.Value.TagFree

/-! Contents that are read whatever becomes of their data. Data are all that a listing of metadata
leaves out, and data without tags stay readable under every write inside them whose path and value
have no tags. -/

namespace DocumentStore

namespace Position

theorem reads_readPoint_toPoint (p : Position) :
    Reads (readPoint .exact (.document p.toPoint)) :=
  ⟨p, rfl⟩

end Position

namespace Content

variable {fields : Document}

theorem reads_readLinked_iff : Reads (readLinked (.document fields)) ↔
    Reads (Members.required Value.readText .missing fields "url") ∧
      Reads (Members.required readMedia .missing fields "mediaType") ∧
      Reads (Members.required readLocation .missing fields "location") ∧ True :=
  reads_bind_iff fun _ => reads_bind_iff fun _ => reads_bind_iff fun _ => iff_true_intro ⟨_, rfl⟩

theorem reads_readEmbedded_iff : Reads (readEmbedded (.document fields)) ↔
    Reads (Value.optionalField (Value.untagged .exact) fields "data") ∧
      Reads (Value.optionalField readLocation fields "location") ∧ True :=
  reads_bind_iff fun _ => reads_bind_iff fun _ => iff_true_intro ⟨_, rfl⟩

theorem reads_read_iff {v : Value} :
    Reads (read v) ↔ Reads (readLinked v) ∨ Reads (readEmbedded v) := by
  unfold read
  cases readLinked v with
  | ok c => simp [Reads]
  | error e => cases readEmbedded v <;> simp [Reads]

/-- A content is read without its data if it is read with them. -/
theorem reads_erase_data (h : Reads (read (.document fields))) :
    Reads (read (.document (Document.erase fields "data"))) := by
  have hget {key : String} (hkey : key ≠ "data") :
      Document.get (Document.erase fields "data") key = Document.get fields key :=
    Document.get_erase_of_ne fields hkey
  have hlocation : Value.optionalField readLocation (Document.erase fields "data") "location" =
      Value.optionalField readLocation fields "location" :=
    Members.optional_congr (hget (by decide))
  rw [reads_read_iff, reads_readLinked_iff, reads_readEmbedded_iff] at h ⊢
  rw [Members.required_congr (hget (by decide)), Members.required_congr (hget (by decide)),
    Members.required_congr (hget (by decide)), hlocation]
  rcases h with h | ⟨-, hread, -⟩
  · exact .inl h
  refine .inr ⟨?_, hread, trivial⟩
  refine Members.reads_optional (fun v hv => ?_) none
  rw [Document.get_erase_self] at hv
  cases hv

/-- A content whose data have no tags and whose location, if there is one, is a point. -/
def IsSound (v : Value) : Prop :=
  ∃ fields, v = .document fields ∧
    (∀ data, Document.get fields "data" = some data → data.isTagFree = true) ∧
    ∀ place, Document.get fields "location" = some place →
      Reads (Value.readOptional readLocation place)

theorem IsSound.reads {v : Value} (h : IsSound v) : Reads (read v) := by
  obtain ⟨fields, rfl, hdata, hlocation⟩ := h
  refine reads_read_iff.mpr (.inr (reads_readEmbedded_iff.mpr ⟨?_, ?_, trivial⟩))
  · refine Members.reads_optional (fun data hget => Value.reads_readOptional ?_) none
    exact Value.exists_untagged .exact data (hdata data hget)
  · exact Members.reads_optional hlocation none

/-- The values that may be written below a content. -/
def AllowsSet (v : Value) : List String → Prop
  | [] => IsSound v
  | "data" :: rest => v.isTagFree = true ∧ ∀ segment ∈ rest, Tagged.isTag segment = false
  | "location" :: rest => rest = [] ∧ Reads (Value.readOptional readLocation v)
  | _ => True

/-- The paths below a content that may be taken out. -/
def AllowsUnset : List String → Prop
  | [] => False
  | "location" :: rest => rest = []
  | _ => True

theorem IsSound.insert (h : IsSound (.document fields)) {key : String} {v : Value}
    (hdata : key = "data" → v.isTagFree = true)
    (hlocation : key = "location" → Reads (Value.readOptional readLocation v)) :
    IsSound (.document (Document.insert fields key v)) := by
  obtain ⟨fields', he, hdata', hlocation'⟩ := h
  obtain rfl := Value.document.inj he
  refine ⟨_, rfl, ?_, ?_⟩
  · intro data hget
    by_cases hkey : key = "data"
    · rw [hkey, Document.get_insert_self] at hget
      exact Option.some.inj hget ▸ hdata hkey
    · rw [Document.get_insert_of_ne fields v (Ne.symm hkey)] at hget
      exact hdata' data hget
  · intro place hget
    by_cases hkey : key = "location"
    · rw [hkey, Document.get_insert_self] at hget
      exact Option.some.inj hget ▸ hlocation hkey
    · rw [Document.get_insert_of_ne fields v (Ne.symm hkey)] at hget
      exact hlocation' place hget

theorem IsSound.erase (h : IsSound (.document fields)) (key : String) :
    IsSound (.document (Document.erase fields key)) := by
  obtain ⟨fields', he, hdata, hlocation⟩ := h
  obtain rfl := Value.document.inj he
  have hget {other : String} {v : Value}
      (hv : Document.get (Document.erase fields key) other = some v) :
      Document.get fields other = some v := by
    by_cases hkey : other = key
    · rw [hkey, Document.get_erase_self] at hv
      cases hv
    · rwa [Document.get_erase_of_ne fields hkey] at hv
  exact ⟨_, rfl, fun data hv => hdata data (hget hv), fun place hv => hlocation place (hget hv)⟩

theorem IsSound.setAt (path : FieldPath) {v content : Value} {segments : List String}
    (h : IsSound content) (hv : AllowsSet v segments) :
    IsSound (Value.setAt path v segments content).2 := by
  cases segments with
  | nil => exact hv
  | cons key rest =>
    have hindata : key = "data" → v.isTagFree = true ∧ ∀ s ∈ rest, Tagged.isTag s = false := by
      rintro rfl
      exact hv
    have hinlocation : key = "location" →
        rest = [] ∧ Reads (Value.readOptional readLocation v) := by
      rintro rfl
      exact hv
    obtain ⟨fields, rfl, hdata, -⟩ := id h
    unfold Value.setAt
    split
    · exact h.insert (fun hkey => (hindata hkey).1) (fun hkey => (hinlocation hkey).2)
    · next hrest =>
      have hbelow : rest ≠ [] := by simpa using hrest
      refine h.insert (fun hkey => ?_) (fun hkey => absurd (hinlocation hkey).1 hbelow)
      obtain ⟨hvalue, hsegments⟩ := hindata hkey
      refine Value.isTagFree_setAt path hvalue hsegments (Value.isTagFree_opened ?_)
      cases hget : Document.get fields key with
      | none => rfl
      | some data => exact hdata data (hkey ▸ hget)

theorem IsSound.removeAt {content : Value} {segments : List String} (h : IsSound content)
    (hv : AllowsUnset segments) : IsSound (Value.removeAt segments content).2 := by
  cases segments with
  | nil => exact h
  | cons key rest =>
    have hinlocation : key = "location" → rest = [] := by
      rintro rfl
      exact hv
    obtain ⟨fields, rfl, hdata, -⟩ := id h
    cases rest with
    | nil => exact h.erase key
    | cons next rest =>
      unfold Value.removeAt
      split
      · exact h
      · next slot hget =>
        refine h.insert (fun hkey => ?_) (fun hkey => nomatch hinlocation hkey)
        exact Value.isTagFree_removeAt _ (hdata slot (hkey ▸ hget))

/-- The data of a content are written without tags. -/
def IsReadable (c : Content) : Prop :=
  ∀ data, c.data = some data → data.written.isTagFree = true

theorem isSound_toDocument {c : Content} (h : c.IsReadable) :
    IsSound (.document c.toDocument) := by
  refine ⟨_, rfl, ?_, ?_⟩
  · intro v hget
    have hentry := Document.mem_of_get hget
    cases c with
    | linked url media location => simp [toDocument] at hentry
    | embedded data location =>
      obtain ⟨data', hdata, rfl⟩ : ∃ data', data = some data' ∧ data'.written = v := by
        simpa [toDocument, presentField] using hentry
      exact h data' hdata
  · intro v hget
    have hentry := Document.mem_of_get hget
    obtain ⟨p, rfl⟩ : ∃ p : Position, .document p.toPoint = v := by
      cases c with
      | linked url media location =>
        exact ⟨location, by simpa [toDocument, eq_comm] using hentry⟩
      | embedded data location =>
        obtain ⟨p, -, hp⟩ : ∃ p, location = some p ∧ .document p.toPoint = v := by
          simpa [toDocument, presentField] using hentry
        exact ⟨p, hp⟩
    exact Value.reads_readOptional (Position.reads_readPoint_toPoint p)

end Content

end DocumentStore
