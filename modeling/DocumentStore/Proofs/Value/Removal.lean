import DocumentStore.Proofs.Value.Frame
import DocumentStore.Proofs.Value.Obstacle

/-! What a removal at a path takes out and what it leaves. It takes out what is read there, of a
document with its key and of an array against a null, and all paths that part from it read what they
read before. A key that was written into a document is taken out without a trace. -/

namespace DocumentStore

namespace Document

theorem erase_insert_of_get_none {d : Document} {key : String} (h : get d key = none) (v : Value) :
    erase (insert d key v) key = d := by
  induction d with
  | nil => simp [insert, erase]
  | cons entry rest ih =>
    obtain ⟨k, u⟩ := entry
    rw [get_cons] at h
    have hk : k ≠ key := fun e => by simp [e] at h
    rw [if_neg hk] at h
    rw [insert, if_neg hk, erase, if_neg hk, ih h]

end Document

namespace Value

section Child

variable {v next : Value} {s t : String}

/-- Nothing is padded by what is put where something is. -/
theorem not_padsAt_of_child (h : child v s = some next) : ¬ v.PadsAt s t := by
  rintro ⟨items, i, j, rfl, hi, -, hlen, hji⟩
  have hnext : items[i]? = some next := by simpa [child, hi] using h
  have hlt := (List.getElem?_eq_some_iff.mp hnext).1
  omega

theorem child_withoutChild_of_ne (hne : s ≠ t)
    (hapart : ∀ items, v = array items →
      ∀ i, FieldPath.index? s = some i → FieldPath.index? t ≠ some i) :
    child (v.withoutChild s) t = child v t := by
  cases v with
  | document fields => exact Document.get_erase_of_ne fields hne.symm
  | array items =>
    cases hi : FieldPath.index? s with
    | none => simp [withoutChild, hi]
    | some i =>
      cases hj : FieldPath.index? t with
      | none => simp [withoutChild, child, hj]
      | some j =>
        have hij : i ≠ j := fun e => hapart items rfl i hi (e ▸ hj)
        simp [withoutChild, child, hi, hj, List.getElem?_set_ne hij]
  | _ => rfl

end Child

section Remove

variable {v w next : Value} {s t : String} {rest shared ss ts : List String}

/-- What is taken out is what was read. -/
theorem fst_removeAt (h : ss ≠ []) (v : Value) : (removeAt ss v).1 = getAt v ss := by
  induction ss generalizing v with
  | nil => exact absurd rfl h
  | cons s rest ih =>
    cases hchild : child v s with
    | none => simp [removeAt_of_child_none hchild, getAt, hchild]
    | some next =>
      rw [getAt, hchild, Option.bind_some]
      by_cases hrest : rest = []
      · subst hrest
        rw [removeAt_last, hchild, getAt]
      · rw [removeAt_of_child hchild hrest]
        exact ih hrest next

theorem removeAt_of_getAt_none (h : getAt v ss = none) : (removeAt ss v).2 = v := by
  induction ss generalizing v with
  | nil => cases h
  | cons s rest ih =>
    cases hchild : child v s with
    | none => rw [removeAt_of_child_none hchild]
    | some next =>
      rw [getAt, hchild, Option.bind_some] at h
      have hrest : rest ≠ [] := by
        rintro rfl
        cases h
      rw [removeAt_of_child hchild hrest, ih h, withChild_child hchild]

/-- A removal below a value on the way is a removal from that value. -/
theorem getAt_removeAt_shared (h : getAt v shared = some w) (hss : ss ≠ []) :
    getAt (removeAt (shared ++ ss) v).2 shared = some (removeAt ss w).2 := by
  induction shared generalizing v with
  | nil =>
    obtain rfl := Option.some.inj h
    rfl
  | cons c shared ih =>
    obtain ⟨next, hnext, hw⟩ := Option.bind_eq_some_iff.mp h
    have hrest : shared ++ ss ≠ [] := by simp [hss]
    rw [List.cons_append, removeAt_of_child hnext hrest, getAt,
      child_withChild_self (admits_of_child hnext), Option.bind_some]
    exact ih hw

theorem child_removeAt_of_ne (hne : s ≠ t)
    (hapart : ∀ items, v = array items →
      ∀ i, FieldPath.index? s = some i → FieldPath.index? t ≠ some i) (rest : List String) :
    child (removeAt (s :: rest) v).2 t = child v t := by
  cases hchild : child v s with
  | none => rw [removeAt_of_child_none hchild]
  | some next =>
    by_cases hrest : rest = []
    · subst hrest
      rw [removeAt_last]
      exact child_withoutChild_of_ne hne hapart
    · rw [removeAt_of_child hchild hrest]
      exact child_withChild_of_ne (admits_of_child hchild) hne hapart
        (not_padsAt_of_child hchild) _

/-- Paths that part from what is removed read what they read before, also in an array, where no item
changes its place. -/
theorem getAt_removeAt_of_parts (h : v.Parts ss ts) :
    getAt (removeAt ss v).2 ts = getAt v ts := by
  obtain ⟨shared, s, t, ⟨ss, rfl⟩, ⟨ts, rfl⟩, hne, hapart⟩ := h
  simp only [List.append_assoc, List.singleton_append]
  cases hw : getAt v shared with
  | none =>
    have hnone : getAt v (shared ++ s :: ss) = none := by
      rw [getAt_append, hw]
      rfl
    rw [removeAt_of_getAt_none hnone]
  | some w =>
    have hbelow : ∀ items, w = array items →
        ∀ i, FieldPath.index? s = some i → FieldPath.index? t ≠ some i := by
      rintro items rfl
      exact hapart items hw
    rw [getAt_append, getAt_append, getAt_removeAt_shared hw (List.cons_ne_nil s ss), hw,
      Option.bind_some, Option.bind_some, getAt, getAt, child_removeAt_of_ne hne hbelow]

theorem opened_of_getAt_document {fields : Document} (h : getAt v ss = some (document fields)) :
    v.opened = v := by
  cases v with
  | null => cases ss <;> cases h
  | _ => rfl

/-- A new key of a document is written, and taken out again without a trace. The containers on the
way are there, so that the write neither makes nor pads one. -/
theorem setAt_removeAt {path : FieldPath} {fields : Document} {key : String} (value : Value)
    (h : getAt v shared = some (document fields)) (habsent : Document.get fields key = none) :
    (setAt path value (shared ++ [key]) v).1 = none ∧
      removeAt (shared ++ [key]) (setAt path value (shared ++ [key]) v).2 = (some value, v) := by
  induction shared generalizing v with
  | nil =>
    obtain rfl := Option.some.inj h
    have hset : setAt path value [key] (document fields) =
        (none, document (Document.insert fields key value)) := rfl
    rw [List.nil_append, hset, removeAt_last]
    refine ⟨rfl, Prod.ext (Document.get_insert_self fields key value) ?_⟩
    exact congrArg document (Document.erase_insert_of_get_none habsent value)
  | cons c shared ih =>
    obtain ⟨next, hnext, hfields⟩ := Option.bind_eq_some_iff.mp h
    obtain ⟨hset, hremove⟩ := ih hfields
    have hadmits := admits_of_child hnext
    have hslot : v.slot c = next := by
      rw [slot, hnext]
      exact opened_of_getAt_document hfields
    rw [List.cons_append, setAt_cons hadmits, hslot]
    refine ⟨hset, ?_⟩
    rw [removeAt_of_child (child_withChild_self hadmits _) (by simp), hremove,
      withChild_withChild_self, withChild_child hnext]

end Remove

end Value

namespace Document

variable {d : Document} {path : FieldPath} {v : Value}

/-- The value that a path ends in. -/
def holder? (d : Document) (path : FieldPath) : Option Value :=
  if path.isEmpty then none else (Value.document d).getAt path.segments.dropLast

theorem fst_removePath (d : Document) (path : FieldPath) :
    (removePath d path).1 = getPath d path := by
  unfold removePath
  split
  · next hsegments => rw [getPath, hsegments]
  · next key hsegments =>
    rw [getPath_cons hsegments]
    cases get d key <;> rfl
  · next key rest hrest hsegments =>
    rw [getPath_cons hsegments]
    cases get d key with
    | none => rfl
    | some next => exact Value.fst_removeAt hrest next

theorem removePath_of_getPath_none (h : getPath d path = none) : (removePath d path).2 = d := by
  by_cases hsegments : path.segments = []
  · rw [removePath, hsegments]
  · refine Value.document.inj ?_
    rw [← removeAt_document]
    exact Value.removeAt_of_getAt_none ((getAt_document hsegments d).trans h)

theorem holder?_of_segments {shared : List String} {key : String}
    (h : path.segments = shared ++ [key]) (d : Document) :
    d.holder? path = (Value.document d).getAt shared := by
  have hne : path.isEmpty = false := by simp [FieldPath.isEmpty, h]
  rw [holder?, hne, h, List.dropLast_concat]
  rfl

theorem exists_segments_of_holder? (h : d.holder? path = some v) :
    ∃ shared key, path.segments = shared ++ [key] := by
  have hne : path.segments ≠ [] := by
    intro hsegments
    simp [holder?, FieldPath.isEmpty, hsegments] at h
  exact ⟨_, _, (List.dropLast_concat_getLast hne).symm⟩

/-- A document loses the key, and an array of the same length reads null in its place. -/
theorem getPath_removePath_of_some (h : getPath d path = some v) :
    (∃ fields, d.holder? path = some (.document fields) ∧
        getPath (removePath d path).2 path = none) ∨
      ∃ items items', d.holder? path = some (.array items) ∧
        (removePath d path).2.holder? path = some (.array items') ∧
        items'.length = items.length ∧ getPath (removePath d path).2 path = some .null := by
  have hne := segments_ne_nil_of_getPath h
  obtain ⟨shared, key, hsegments⟩ : ∃ shared key, path.segments = shared ++ [key] :=
    ⟨_, _, (List.dropLast_concat_getLast hne).symm⟩
  have hread := getAt_document hne d
  have hread' := getAt_document hne (removePath d path).2
  rw [hsegments, h, Value.getAt_append] at hread
  obtain ⟨holder, hholder, hbelow⟩ := Option.bind_eq_some_iff.mp hread
  obtain ⟨next, hchild, -⟩ := Option.bind_eq_some_iff.mp hbelow
  have hafter : (Value.document (removePath d path).2).getAt shared =
      some (holder.withoutChild key) := by
    rw [← removeAt_document, hsegments,
      Value.getAt_removeAt_shared hholder (List.cons_ne_nil key []), Value.removeAt_last]
  have hget : getPath (removePath d path).2 path = (holder.withoutChild key).child key := by
    rw [← hread', hsegments, Value.getAt_append, hafter, Option.bind_some, Value.getAt]
    cases (holder.withoutChild key).child key <;> rfl
  rw [holder?_of_segments hsegments, holder?_of_segments hsegments, hholder, hafter, hget]
  rcases Value.child_withoutChild_self hchild with
    ⟨fields, rfl, hnone⟩ | ⟨items, items', rfl, hitems, hlength, hnull⟩
  · exact .inl ⟨fields, rfl, hnone⟩
  · exact .inr ⟨items, items', rfl, by rw [hitems], hlength, hnull⟩

theorem setPath_removePath {fields : Document} (v : Value) (h : getPath d path = none)
    (hholder : d.holder? path = some (.document fields)) :
    (setPath d path v).1 = none ∧ removePath (setPath d path v).2 path = (some v, d) := by
  obtain ⟨shared, key, hsegments⟩ := exists_segments_of_holder? hholder
  have hne : path.segments ≠ [] := by simp [hsegments]
  rw [holder?_of_segments hsegments] at hholder
  have habsent : get fields key = none := by
    rw [← getAt_document hne, hsegments, Value.getAt_append, hholder] at h
    cases hget : get fields key with
    | none => rfl
    | some w => simp [Value.getAt, Value.child, hget] at h
  have hset : (setPath d path v).1 = none := by
    cases shared with
    | nil => rw [setPath, hsegments]; rfl
    | cons first shared =>
      obtain ⟨slot, hslot, hfields⟩ := Option.bind_eq_some_iff.mp hholder
      have hget : get d first = some slot := hslot
      rw [setPath_cons hsegments, hget]
      exact (Value.setAt_removeAt v hfields habsent).1
  obtain ⟨-, hremove⟩ := Value.setAt_removeAt v hholder habsent
  rw [← hsegments, setAt_document hset] at hremove
  refine ⟨hset, Prod.ext ?_ (Value.document.inj ?_)⟩
  · rw [fst_removePath, getPath_setPath hset]
  · rw [← removeAt_document, hremove]

/-- A removal returns what was read and leaves the document as it is where nothing was. What was
there is gone from a document and null in an array, whose items keep their places, and a path that
parts from the one removed reads what it read before. A key written into a document that is there
is taken out again without a trace. -/
theorem removePath_exact (d : Document) (path : FieldPath) :
    (removePath d path).1 = getPath d path ∧
      (getPath d path = none → (removePath d path).2 = d) ∧
      (∀ v, getPath d path = some v →
        (∃ fields, d.holder? path = some (.document fields) ∧
          getPath (removePath d path).2 path = none) ∨
        ∃ items items', d.holder? path = some (.array items) ∧
          (removePath d path).2.holder? path = some (.array items') ∧
          items'.length = items.length ∧ getPath (removePath d path).2 path = some .null) ∧
      (∀ other : FieldPath, (Value.document d).Parts path.segments other.segments →
        getPath (removePath d path).2 other = getPath d other) ∧
      ∀ fields v, getPath d path = none → d.holder? path = some (.document fields) →
        (setPath d path v).1 = none ∧ removePath (setPath d path v).2 path = (some v, d) := by
  refine ⟨fst_removePath d path, removePath_of_getPath_none,
    fun v => getPath_removePath_of_some, fun other hparts => ?_,
    fun fields v => setPath_removePath v⟩
  have hother : other.segments ≠ [] := by
    obtain ⟨shared, -, t, -, ⟨ts, hts⟩, -⟩ := hparts
    simp [← hts]
  rw [← getAt_document hother, ← getAt_document hother, ← removeAt_document]
  exact Value.getAt_removeAt_of_parts hparts

/-- The first of two rows is taken out, and a key beside the rows is written and taken out. -/
theorem removePath_exact_rows :
    let content : Document := [("rows", .array [.int32 1, .int32 2]), ("url", .string "x")]
    let d : Document := [("content", .document content)]
    let first : FieldPath := .ofString "content.rows[0]"
    let kind : FieldPath := .ofString "content.kind"
    let d' : Document := (removePath d first).2
    (removePath d first).1 = some (.int32 1) ∧ getPath d' first = some .null ∧
      getPath d' (.ofString "content.rows.1") = some (.int32 2) ∧
      removePath (setPath d kind (.bool true)).2 kind = (some (.bool true), d) := by
  intro content d first kind d'
  obtain ⟨hreturned, -, htaken, hothers, -⟩ := removePath_exact d first
  obtain ⟨-, -, -, -, hundone⟩ := removePath_exact d kind
  have hread : getPath d first = some (.int32 1) := rfl
  have hnull : getPath d' first = some .null := by
    rcases htaken _ hread with ⟨fields, hholder, -⟩ | ⟨-, -, -, -, -, hnull⟩
    · cases hholder
    · exact hnull
  have hparts : (Value.document d).Parts first.segments
      (FieldPath.ofString "content.rows.1").segments := by
    refine ⟨["content", "rows"], "0", "1", ⟨[], rfl⟩, ⟨[], rfl⟩, by decide, ?_⟩
    rintro items - i hi hi'
    cases hi
    exact absurd hi' (by decide +kernel)
  exact ⟨hreturned.trans hread, hnull, (hothers _ hparts).trans rfl,
    (hundone content (.bool true) rfl rfl).2⟩

end Document

end DocumentStore
