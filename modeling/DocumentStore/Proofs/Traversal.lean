import Mathlib.Data.List.Forall2

/-! Lists read item by item. The first item that is refused refuses the list, and otherwise the
items are read in their order. -/

namespace DocumentStore.Traversal

variable {α β ε : Type} {f : α → Except ε β} {xs : List α} {ys : List β}

theorem bind_eq_ok_iff {x : Except ε α} {g : α → Except ε β} {b : β} :
    x >>= g = .ok b ↔ ∃ a, x = .ok a ∧ g a = .ok b := by
  cases x with
  | error e =>
    constructor
    · intro h
      cases h
    · rintro ⟨a, h, -⟩
      cases h
  | ok a =>
    constructor
    · intro h
      exact ⟨a, rfl, h⟩
    · rintro ⟨a', h, hg⟩
      cases h
      exact hg

theorem map_eq_ok_iff {x : Except ε α} {g : α → β} {b : β} :
    x.map g = .ok b ↔ ∃ a, x = .ok a ∧ g a = b := by
  cases x <;> simp [Except.map]

theorem mapM_eq_ok_iff : xs.mapM f = .ok ys ↔ List.Forall₂ (fun a b => f a = .ok b) xs ys := by
  induction xs generalizing ys with
  | nil =>
    rw [List.mapM_nil, List.forall₂_nil_left_iff]
    exact ⟨fun h => (Except.ok.inj h).symm, fun h => h ▸ rfl⟩
  | cons x xs ih =>
    rw [List.mapM_cons, bind_eq_ok_iff]
    constructor
    · rintro ⟨y, hy, h⟩
      obtain ⟨rest, hrest, h⟩ := bind_eq_ok_iff.mp h
      cases h
      exact .cons hy (ih.mp hrest)
    · intro h
      cases h with
      | cons hy hs => exact ⟨_, hy, bind_eq_ok_iff.mpr ⟨_, ih.mpr hs, rfl⟩⟩

theorem mapM_eq_ok_map {g : α → β} (h : ∀ a ∈ xs, f a = .ok (g a)) :
    xs.mapM f = .ok (xs.map g) := by
  rw [mapM_eq_ok_iff, List.forall₂_map_right_iff, List.forall₂_same]
  exact h

theorem eq_map_of_mapM {g : α → β} (h : xs.mapM f = .ok ys)
    (hg : ∀ a ∈ xs, ∀ b, f a = .ok b → b = g a) : ys = xs.map g := by
  have hs := mapM_eq_ok_iff.mp h
  clear h
  induction hs with
  | nil => rfl
  | @cons a b xs ys hb _ ih =>
    rw [List.map_cons, hg a (by simp) b hb, ih (fun c hc => hg c (by simp [hc]))]

theorem exists_mem_of_mapM (h : xs.mapM f = .ok ys) {b : β} (hb : b ∈ ys) :
    ∃ a ∈ xs, f a = .ok b := by
  have hs := mapM_eq_ok_iff.mp h
  clear h
  induction hs with
  | nil => cases hb
  | @cons a c xs ys hc _ ih =>
    rcases List.mem_cons.mp hb with rfl | hb
    · exact ⟨a, by simp, hc⟩
    · obtain ⟨a', ha, hf⟩ := ih hb
      exact ⟨a', by simp [ha], hf⟩

theorem exists_mem_of_mapM_error {e : ε} (h : xs.mapM f = .error e) :
    ∃ a ∈ xs, f a = .error e := by
  induction xs with
  | nil => cases h
  | cons x xs ih =>
    rw [List.mapM_cons] at h
    cases hx : f x with
    | error e' =>
      rw [hx] at h
      cases h
      exact ⟨x, by simp, hx⟩
    | ok b =>
      rw [hx] at h
      cases hs : xs.mapM f with
      | ok bs =>
        rw [hs] at h
        cases h
      | error e' =>
        rw [hs] at h
        cases h
        obtain ⟨a, ha, hf⟩ := ih hs
        exact ⟨a, by simp [ha], hf⟩

theorem mapM_error_of_mem {a : α} {e : ε} (ha : a ∈ xs) (h : f a = .error e) :
    ∃ a' ∈ xs, ∃ e', f a' = .error e' ∧ xs.mapM f = .error e' := by
  cases hs : xs.mapM f with
  | error e' =>
    obtain ⟨a', ha', hf⟩ := exists_mem_of_mapM_error hs
    exact ⟨a', ha', e', hf, rfl⟩
  | ok ys =>
    obtain ⟨i, hi, rfl⟩ := List.mem_iff_getElem.mp ha
    have hitems := mapM_eq_ok_iff.mp hs
    have hok := hitems.get hi (hitems.length_eq ▸ hi)
    rw [List.get_eq_getElem, h] at hok
    cases hok

end DocumentStore.Traversal
