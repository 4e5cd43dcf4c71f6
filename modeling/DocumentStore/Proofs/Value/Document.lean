import DocumentStore.Value.Basic

/-! The entries of documents under the operations that change them. -/

namespace DocumentStore.Document

variable {d entries : Document} {key : String} {v : Value} {entry : String × Value}

theorem mem_of_get (h : get d key = some v) : (key, v) ∈ d := by
  induction d with
  | nil => simp at h
  | cons e rest ih =>
    obtain ⟨k, u⟩ := e
    rw [get_cons] at h
    by_cases hk : k = key
    · simp_all
    · rw [if_neg hk] at h
      exact List.mem_cons_of_mem _ (ih h)

theorem get_of_mem (h : (d.map Prod.fst).Nodup) (hmem : (key, v) ∈ d) : get d key = some v := by
  induction d with
  | nil => cases hmem
  | cons entry rest ih =>
    obtain ⟨k, u⟩ := entry
    obtain ⟨hk, hrest⟩ := List.nodup_cons.mp h
    rw [get_cons]
    rcases List.mem_cons.mp hmem with hmem | hmem
    · cases hmem
      rw [if_pos rfl]
    · have hne : k ≠ key := by
        rintro rfl
        exact hk (List.mem_map.mpr ⟨_, hmem, rfl⟩)
      rw [if_neg hne, ih hrest hmem]

theorem insert_of_get (h : get d key = some v) : insert d key v = d := by
  induction d with
  | nil => simp at h
  | cons e rest ih =>
    obtain ⟨k, u⟩ := e
    rw [get_cons] at h
    by_cases hk : k = key
    · obtain rfl : u = v := by simpa [hk] using h
      simp [insert, hk]
    · rw [if_neg hk] at h
      simp [insert, hk, ih h]

theorem insert_of_get_none {d : Document} {key : String} (h : get d key = none) (v : Value) :
    insert d key v = d ++ [(key, v)] := by
  induction d with
  | nil => rfl
  | cons entry rest ih =>
    obtain ⟨k, u⟩ := entry
    rw [get_cons] at h
    have hk : k ≠ key := fun e => by simp [e] at h
    rw [if_neg hk] at h
    rw [insert, if_neg hk, ih h, List.cons_append]

theorem mem_of_mem_insert (h : entry ∈ insert d key v) : entry = (key, v) ∨ entry ∈ d := by
  induction d with
  | nil => simpa [insert] using h
  | cons e rest ih =>
    obtain ⟨k, u⟩ := e
    by_cases hk : k = key
    · rw [insert, if_pos hk, hk] at h
      rcases List.mem_cons.mp h with h | h
      · exact .inl h
      · exact .inr (List.mem_cons_of_mem _ h)
    · rw [insert, if_neg hk] at h
      rcases List.mem_cons.mp h with h | h
      · exact .inr (h ▸ List.mem_cons_self)
      · exact (ih h).imp_right (List.mem_cons_of_mem _)

theorem mem_of_mem_erase (h : entry ∈ erase d key) : entry ∈ d := by
  induction d with
  | nil => exact h
  | cons e rest ih =>
    obtain ⟨k, u⟩ := e
    by_cases hk : k = key
    · rw [erase, if_pos hk] at h
      exact List.mem_cons_of_mem _ (ih h)
    · rw [erase, if_neg hk] at h
      rcases List.mem_cons.mp h with h | h
      · exact h ▸ List.mem_cons_self
      · exact List.mem_cons_of_mem _ (ih h)

theorem mem_of_mem_insertAll (h : entry ∈ insertAll d entries) : entry ∈ d ∨ entry ∈ entries := by
  induction entries generalizing d with
  | nil => exact .inl h
  | cons e rest ih =>
    rcases ih h with h | h
    · rcases mem_of_mem_insert h with h | h
      · exact .inr (h ▸ List.mem_cons_self)
      · exact .inl h
    · exact .inr (List.mem_cons_of_mem _ h)

theorem isSome_get_insert {other : String} (h : other = key ∨ (get d other).isSome = true) :
    (get (insert d key v) other).isSome = true := by
  by_cases hk : other = key
  · rw [hk, get_insert_self]
    rfl
  · rw [get_insert_of_ne d v hk]
    exact h.resolve_left hk

theorem isSome_get_insertAll (h : key ∈ entries.map Prod.fst ∨ (get d key).isSome = true) :
    (get (insertAll d entries) key).isSome = true := by
  induction entries generalizing d with
  | nil => exact h.resolve_left (by simp)
  | cons e rest ih =>
    refine ih ?_
    rcases h with h | h
    · rcases List.mem_cons.mp h with h | h
      · exact .inr (isSome_get_insert (.inl h))
      · exact .inl h
    · exact .inr (isSome_get_insert (.inr h))

theorem get_insertAll_of_notMem (h : key ∉ entries.map Prod.fst) :
    get (insertAll d entries) key = get d key := by
  induction entries generalizing d with
  | nil => rfl
  | cons e rest ih =>
    obtain ⟨hne, hrest⟩ : key ≠ e.1 ∧ key ∉ rest.map Prod.fst := by simpa using h
    exact (ih hrest).trans (get_insert_of_ne d _ hne)

/-- A key that is written is there once if it was not there before. -/
theorem count_keys_insert (d : Document) (key : String) (v : Value) (other : String) :
    ((insert d key v).map Prod.fst).count other =
      if other = key then max 1 ((d.map Prod.fst).count other)
      else (d.map Prod.fst).count other := by
  induction d with
  | nil =>
    by_cases hother : other = key
    · simp [insert, hother]
    · simp [insert, hother, Ne.symm hother]
  | cons e rest ih =>
    obtain ⟨k, u⟩ := e
    by_cases hk : k = key
    · subst hk
      rw [insert, if_pos rfl]
      by_cases hother : other = k
      · rw [if_pos hother, List.map_cons, List.map_cons, hother, List.count_cons_self]
        omega
      · rw [if_neg hother]
        rfl
    · rw [insert, if_neg hk, List.map_cons, List.map_cons, List.count_cons, List.count_cons, ih]
      by_cases hother : other = key
      · simp [hother, hk]
      · simp [hother]

theorem count_keys_insertAll (d entries : Document) (other : String) :
    ((insertAll d entries).map Prod.fst).count other =
      if other ∈ entries.map Prod.fst then max 1 ((d.map Prod.fst).count other)
      else (d.map Prod.fst).count other := by
  induction entries generalizing d with
  | nil => rfl
  | cons e rest ih =>
    refine (ih (insert d e.1 e.2)).trans ?_
    rw [count_keys_insert, List.map_cons]
    by_cases hrest : other ∈ rest.map Prod.fst
    · rw [if_pos hrest, if_pos (List.mem_cons_of_mem _ hrest)]
      split <;> omega
    · rw [if_neg hrest]
      simp [hrest]

theorem keys_insert_perm (d : Document) (key : String) (v w : Value) :
    ((insert d key v).map Prod.fst).Perm ((insert d key w).map Prod.fst) := by
  rw [List.perm_iff_count]
  intro other
  rw [count_keys_insert, count_keys_insert]

theorem keys_insert_comm (d : Document) (key other : String) (v w : Value) :
    ((insert (insert d key v) other w).map Prod.fst).Perm
      ((insert (insert d other w) key v).map Prod.fst) := by
  rw [List.perm_iff_count]
  intro k
  simp only [count_keys_insert]
  by_cases hkey : k = key
  · rw [if_pos hkey, if_pos hkey]
    by_cases hother : k = other
    · rw [if_pos hother, if_pos hother]
    · rw [if_neg hother, if_neg hother]
  · rw [if_neg hkey, if_neg hkey]

theorem count_keys_erase (d : Document) (key other : String) :
    ((erase d key).map Prod.fst).count other =
      if other = key then 0 else (d.map Prod.fst).count other := by
  induction d with
  | nil => simp [erase]
  | cons e rest ih =>
    obtain ⟨k, u⟩ := e
    by_cases hk : k = key
    · subst hk
      rw [erase, if_pos rfl, ih, List.map_cons, List.count_cons]
      by_cases hother : other = k
      · rw [if_pos hother, if_pos hother]
      · simp [hother, Ne.symm hother]
    · rw [erase, if_neg hk, List.map_cons, List.map_cons, List.count_cons, List.count_cons, ih]
      by_cases hother : other = key
      · subst hother
        simp [hk]
      · simp [hother]

end DocumentStore.Document
