import DocumentStore.Entity.Basic
import DocumentStore.Proofs.Reading
import DocumentStore.Proofs.Value.Document
import Mathlib.Tactic.MkIffOfInductiveProp

/-! What the stored documents of a model look like. A document is read if each of its fields is
accepted and none that is required is missing; other fields do not matter. -/

namespace DocumentStore

variable {α β δ ε : Type}

namespace Members

variable {checkMember : String → Value → Except ε Unit} {read : Value → Except ε α} {key : String}
  {d : Document}

theorem required_congr {d' : Document} {missing : String → ε}
    (h : Document.get d key = Document.get d' key) :
    required read missing d key = required read missing d' key := by
  have hlookup : List.lookup key d = List.lookup key d' := h
  rw [required, required, hlookup]

theorem optional_congr {d' : Document} {default : α}
    (h : Document.get d key = Document.get d' key) :
    optional read default d key = optional read default d' key := by
  have hlookup : List.lookup key d = List.lookup key d' := h
  rw [optional, optional, hlookup]

theorem reads_of_check (hcheck : checkMember key = readable read)
    (h : ∀ entry ∈ d, checkMember entry.1 entry.2 = .ok ()) (v : Value)
    (hv : Document.get d key = some v) : Reads (read v) := by
  have hentry : checkMember key v = .ok () := h (key, v) (Document.mem_of_get hv)
  rwa [hcheck, readable_eq_ok_iff] at hentry

theorem reads_required_iff (h : ∀ v, Document.get d key = some v → Reads (read v))
    (missing : String → ε) :
    Reads (required read missing d key) ↔ (Document.get d key).isSome = true := by
  unfold required Document.get
  split
  · next v hv =>
    rw [hv]
    exact iff_of_true (h v hv) rfl
  · next hv =>
    rw [hv]
    refine iff_of_false ?_ Bool.false_ne_true
    rintro ⟨a, ha⟩
    cases ha

theorem reads_optional (h : ∀ v, Document.get d key = some v → Reads (read v)) (default : α) :
    Reads (optional read default d key) := by
  unfold optional
  split
  · next v hv => exact h v hv
  · exact ⟨default, rfl⟩

section Fields

variable (hcheck : checkMember key = readable read)
  (h : ∀ entry ∈ d, checkMember entry.1 entry.2 = .ok ()) {f : α → Except ε β} {p : Prop}
  (hf : ∀ a, Reads (f a) ↔ p)

include hcheck h hf

theorem reads_required_bind_iff {missing : String → ε} :
    Reads (required read missing d key >>= f) ↔ (Document.get d key).isSome = true ∧ p := by
  rw [reads_bind_iff hf, reads_required_iff (reads_of_check hcheck h)]

theorem reads_optional_bind_iff {default : α} :
    Reads (optional read default d key >>= f) ↔ p := by
  rw [reads_bind_iff hf]
  exact and_iff_right (reads_optional (reads_of_check hcheck h) default)

end Fields

end Members

theorem Value.reads_readOptional {read : Value.Reader α} {v : Value} (h : Reads (read v)) :
    Reads (readOptional read v) := by
  unfold readOptional
  split
  · exact ⟨none, rfl⟩
  · exact reads_map_iff.mpr h

structure Schema where
  accepts : String → Value → Prop
  required : List String

namespace Schema

@[mk_iff]
structure Holds (σ : Schema) (d : Document) : Prop where
  accepted : ∀ entry ∈ d, σ.accepts entry.1 entry.2
  present : ∀ key ∈ σ.required, (Document.get d key).isSome = true

variable {σ : Schema} {d : Document} {key : String} {v : Value}

theorem Holds.insert (h : σ.Holds d) (hv : σ.accepts key v) :
    σ.Holds (Document.insert d key v) where
  accepted := by
    intro entry hentry
    rcases Document.mem_of_mem_insert hentry with rfl | hentry
    · exact hv
    · exact h.accepted entry hentry
  present := fun other hother => Document.isSome_get_insert (.inr (h.present other hother))

theorem Holds.insertAll {entries : Document} (h : σ.Holds d)
    (hentries : ∀ entry ∈ entries, σ.accepts entry.1 entry.2) :
    σ.Holds (Document.insertAll d entries) := by
  induction entries generalizing d with
  | nil => exact h
  | cons entry rest ih =>
    obtain ⟨hentry, hrest⟩ := List.forall_mem_cons.mp hentries
    exact ih (h.insert hentry) hrest

theorem Holds.erase (h : σ.Holds d) (hkey : key ∉ σ.required) :
    σ.Holds (Document.erase d key) where
  accepted := fun entry hentry => h.accepted entry (Document.mem_of_mem_erase hentry)
  present := by
    intro other hother
    have hne : other ≠ key := fun e => hkey (e ▸ hother)
    rw [Document.get_erase_of_ne d hne]
    exact h.present other hother

end Schema

namespace Model

variable (m : Model β δ)

/-- The fields of entities beside those that only one model has. -/
def schema (required : List String) : Schema where
  accepts := fun key v => m.checkEntity key v = .ok ()
  required := idKey :: (required ++ [createdAtKey, updatedAtKey])

def Decodes (d : Document) : Prop :=
  Reads (m.decode d)

theorem decodes_iff {required : List String}
    (hbody : ∀ d : Document, (∀ entry ∈ d, m.checkEntity entry.1 entry.2 = .ok ()) →
      (Reads (m.readBody d) ↔ ∀ key ∈ required, (Document.get d key).isSome = true))
    (d : Document) : m.Decodes d ↔ (m.schema required).Holds d := by
  have hfields (h : ∀ entry ∈ d, m.checkEntity entry.1 entry.2 = .ok ()) : m.Decodes d ↔
      ∀ key ∈ (m.schema required).required, (Document.get d key).isSome = true := by
    have hcheck : Members.check m.checkEntity d = .ok () := Members.check_eq_ok_iff.mpr h
    have hreads : m.Decodes d ↔ (Document.get d idKey).isSome = true ∧ Reads (m.readBody d) ∧
        (Document.get d createdAtKey).isSome = true ∧
        (Document.get d updatedAtKey).isSome = true ∧ True := by
      rw [Decodes, decode, hcheck]
      exact Members.reads_required_bind_iff rfl h fun _ => reads_bind_iff fun _ =>
        Members.reads_required_bind_iff rfl h fun _ =>
          Members.reads_required_bind_iff rfl h fun _ => iff_true_intro ⟨_, rfl⟩
    rw [hreads, hbody d h]
    simp only [schema, List.forall_mem_cons, List.forall_mem_append, List.not_mem_nil,
      false_imp_iff, implies_true]
  rw [Schema.holds_iff]
  constructor
  · intro hd
    obtain ⟨e, he⟩ := id hd
    obtain ⟨_, hcheck, -⟩ := Traversal.bind_eq_ok_iff.mp he
    have h := Members.check_eq_ok_iff.mp hcheck
    exact ⟨h, (hfields h).mp hd⟩
  · rintro ⟨h, hpresent⟩
    exact (hfields h).mpr hpresent

end Model

end DocumentStore
