import DocumentStore.Members
import DocumentStore.Proofs.Traversal

/-! When something is read at all, whatever it is read as, and when all members of a record are. -/

namespace DocumentStore

variable {α β ε ν : Type}

/-- Something is read, whatever it is. -/
def Reads (x : Except ε α) : Prop :=
  ∃ a, x = .ok a

theorem reads_map_iff {x : Except ε α} {g : α → β} : Reads (x.map g) ↔ Reads x := by
  cases x <;> simp [Reads, Except.map]

theorem Reads.bind {x : Except ε α} {f : α → Except ε β} (h : Reads x) (hf : ∀ a, Reads (f a)) :
    Reads (x >>= f) := by
  obtain ⟨a, rfl⟩ := h
  exact hf a

theorem reads_bind_iff {x : Except ε α} {f : α → Except ε β} {p : Prop}
    (hf : ∀ a, Reads (f a) ↔ p) : Reads (x >>= f) ↔ Reads x ∧ p := by
  constructor
  · rintro ⟨b, hb⟩
    obtain ⟨a, ha, hb⟩ := Traversal.bind_eq_ok_iff.mp hb
    exact ⟨⟨a, ha⟩, (hf a).mp ⟨b, hb⟩⟩
  · rintro ⟨hx, hp⟩
    exact hx.bind fun a => (hf a).mpr hp

theorem reads_mapM_iff {f : α → Except ε β} {xs : List α} :
    Reads (xs.mapM f) ↔ ∀ a ∈ xs, Reads (f a) := by
  induction xs with
  | nil => exact iff_of_true ⟨[], rfl⟩ (by simp)
  | cons x xs ih =>
    rw [List.mapM_cons, List.forall_mem_cons, ← ih]
    exact reads_bind_iff fun b => reads_map_iff (x := xs.mapM f) (g := (b :: ·))

namespace Members

variable {checkMember : String → ν → Except ε Unit} {read : ν → Except ε α}

theorem readable_eq_ok_iff {v : ν} : readable read v = .ok () ↔ Reads (read v) := by
  rw [readable]
  cases read v <;> simp [Reads, Except.map]

theorem check_eq_ok_iff {members : List (String × ν)} : check checkMember members = .ok () ↔
    ∀ entry ∈ members, checkMember entry.1 entry.2 = .ok () := by
  induction members with
  | nil => simp [check]
  | cons entry rest ih =>
    obtain ⟨k, v⟩ := entry
    rw [check]
    cases h : checkMember k v with
    | ok => simpa [h] using ih
    | error e => simp [h]

theorem required_eq_ok_iff {members : List (String × ν)} {missing : String → ε} {key : String}
    {a : α} : required read missing members key = .ok a ↔
      ∃ v, members.lookup key = some v ∧ read v = .ok a := by
  unfold required
  cases members.lookup key <;> simp

end Members

end DocumentStore
