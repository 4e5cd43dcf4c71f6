import DocumentStore.Collection
import DocumentStore.Proofs.Traversal

/-! What the operations of a collection do with the documents that satisfy a query. Where the query
is refused by none of them, all operations agree on which documents these are. -/

namespace DocumentStore

namespace Collection

variable {query : Document} {p : Document → Bool} {ds : List Document}

theorem splitFirst_of_answers (h : ∀ d ∈ ds, d.matches query = .ok (p d)) :
    (splitFirst query ds = .ok none ∧ ∀ d ∈ ds, p d = false) ∨
      ∃ before found after, splitFirst query ds = .ok (some (before, found, after)) ∧
        ds = before ++ found :: after ∧ (∀ d ∈ before, p d = false) ∧ p found = true := by
  induction ds with
  | nil => exact .inl ⟨rfl, by simp⟩
  | cons d ds ih =>
    have hd := h d (by simp)
    cases hp : p d with
    | true =>
      refine .inr ⟨[], d, ds, ?_, rfl, by simp, hp⟩
      rw [splitFirst, hd, hp]
      rfl
    | false =>
      rcases ih (fun d' hd' => h d' (by simp [hd'])) with
        ⟨hs, hnone⟩ | ⟨before, found, after, hs, hds, hbefore, hfound⟩
      · refine .inl ⟨?_, by simpa [hp] using hnone⟩
        rw [splitFirst, hd, hp, hs]
        rfl
      · refine .inr ⟨d :: before, found, after, ?_, by rw [hds, List.cons_append],
          by simpa [hp] using hbefore, hfound⟩
        rw [splitFirst, hd, hp, hs]
        rfl

theorem splitFirst_eq_some_iff {before after : List Document} {found : Document} :
    splitFirst query ds = .ok (some (before, found, after)) ↔
      ds = before ++ found :: after ∧ (∀ d ∈ before, d.matches query = .ok false) ∧
        found.matches query = .ok true := by
  constructor
  · intro h
    induction ds generalizing before with
    | nil => cases h
    | cons d ds ih =>
      obtain ⟨b, hb, h⟩ := Traversal.bind_eq_ok_iff.mp h
      cases b with
      | true =>
        cases h
        exact ⟨rfl, by simp, hb⟩
      | false =>
        obtain ⟨split, hsplit, h⟩ := Traversal.bind_eq_ok_iff.mp h
        cases split with
        | none => cases h
        | some parts =>
          cases h
          obtain ⟨hds, hbefore, hfound⟩ := ih hsplit
          refine ⟨by rw [hds, List.cons_append], ?_, hfound⟩
          exact List.forall_mem_cons.mpr ⟨hb, hbefore⟩
  · rintro ⟨rfl, hbefore, hfound⟩
    induction before with
    | nil =>
      rw [List.nil_append, splitFirst, hfound]
      rfl
    | cons d before ih =>
      obtain ⟨hd, hbefore⟩ := List.forall_mem_cons.mp hbefore
      rw [List.cons_append, splitFirst, hd, ih hbefore]
      rfl

theorem rest_of_answers (h : ∀ d ∈ ds, d.matches query = .ok (p d)) :
    rest query ds = .ok (ds.filter (fun d => !p d)) := by
  induction ds with
  | nil => rfl
  | cons d ds ih =>
    rw [rest, h d (by simp), ih (fun d' hd' => h d' (by simp [hd'])), List.filter_cons]
    cases p d <;> rfl

theorem keep_of_answers (h : ∀ d ∈ ds, d.matches query = .ok (p d)) :
    Stage.keep query ds = .ok (ds.filter p) := by
  induction ds with
  | nil => rfl
  | cons d ds ih =>
    rw [Stage.keep, h d (by simp), ih (fun d' hd' => h d' (by simp [hd'])), List.filter_cons]
    cases p d <;> rfl

theorem answers_of_keep {found : List Document} (h : Stage.keep query ds = .ok found) :
    ∀ d ∈ ds, d.matches query = .ok ((d.matches query).toOption.getD false) := by
  induction ds generalizing found with
  | nil => simp
  | cons d ds ih =>
    obtain ⟨holds, hd, h⟩ := Traversal.bind_eq_ok_iff.mp h
    obtain ⟨rest, hrest, -⟩ := Traversal.bind_eq_ok_iff.mp h
    intro d' hd'
    rcases List.mem_cons.mp hd' with rfl | hd'
    · rw [hd]
      rfl
    · exact ih hrest d' hd'

section Find

variable {c : Collection} {found : List Document}

theorem aggregate_filter (c : Collection) (query : Document) :
    c.aggregate [(Stage.filter query).toDocument] = c.find query := by
  change (Stage.keep query c.documents >>= Pipeline.run []) = Stage.keep query c.documents
  cases Stage.keep query c.documents <;> rfl

theorem splitFirst_of_find_nil (h : c.find query = .ok []) :
    splitFirst query c.documents = .ok none := by
  have hanswers := answers_of_keep h
  have hkeep := (keep_of_answers hanswers).symm.trans h
  rcases splitFirst_of_answers hanswers with
    ⟨hs, -⟩ | ⟨before, first, after, -, hds, -, hfirst⟩
  · exact hs
  · have hnone := List.filter_eq_nil_iff.mp (Except.ok.inj hkeep) first (by simp [hds])
    exact absurd hfirst hnone

theorem splitFirst_of_find_cons {first : Document} {later : List Document}
    (h : c.find query = .ok (first :: later)) :
    ∃ before after, splitFirst query c.documents = .ok (some (before, first, after)) := by
  have hanswers := answers_of_keep h
  have hkeep := Except.ok.inj ((keep_of_answers hanswers).symm.trans h)
  rcases splitFirst_of_answers hanswers with
    ⟨-, hnone⟩ | ⟨before, first', after, hs, hds, hbefore, hfirst⟩
  · have hmem : first ∈ c.documents.filter _ := hkeep ▸ List.mem_cons_self
    obtain ⟨hmem, hholds⟩ := List.mem_filter.mp hmem
    rw [hnone first hmem] at hholds
    cases hholds
  · have hskipped : before.filter (fun d => (d.matches query).toOption.getD false) = [] :=
      List.filter_eq_nil_iff.mpr fun d hd => by simp [hbefore d hd]
    rw [hds, List.filter_append, hskipped, List.nil_append, List.filter_cons,
      if_pos hfirst] at hkeep
    obtain rfl := (List.cons.inj hkeep).1
    exact ⟨before, after, hs⟩

theorem deleteMany_of_answers (h : ∀ d ∈ c.documents, d.matches query = .ok (p d)) :
    c.deleteMany query = .ok ((c.documents.filter p).length,
      { c with documents := c.documents.filter (fun d => !p d) }) := by
  have hlengths := List.length_eq_length_filter_add p (l := c.documents)
  rw [deleteMany, rest_of_answers h]
  refine congrArg (fun n => Except.ok (n, _)) ?_
  change c.documents.length - _ = _
  omega

end Find

end Collection

end DocumentStore
