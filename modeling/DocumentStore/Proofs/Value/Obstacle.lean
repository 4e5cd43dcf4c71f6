import DocumentStore.Proofs.Value.Write

/-! Writes that are refused. What refuses a write at a path stands in the document on the way there
and is met before anything is written. A null or a gap on the way refuses nothing, since from there
on the write makes its own containers, and so a refused write leaves the document as it was. -/

namespace DocumentStore

namespace Value

/-- What keeps a write from going on below a segment. -/
def barrier? (path : FieldPath) (segment : String) : Value → Option WriteFault
  | document _ => none
  | array items =>
    match FieldPath.index? segment with
    | none => some (.notAnIndex segment path)
    | some i =>
      if maxArrayPadding < i - items.length then some (.paddingTooLong i path) else none
  | v => some (.notAContainer segment v.typeName path)

/-- The first barrier on the way along the segments. -/
def obstacle? (path : FieldPath) : List String → Value → Option WriteFault
  | [], _ => none
  | segment :: rest, v => (v.barrier? path segment).or (obstacle? path rest (v.slot segment))

section Barrier

variable {path : FieldPath} {segment : String} {v : Value}

theorem admits_of_barrier (h : v.barrier? path segment = none) : v.Admits segment := by
  cases v with
  | document fields => trivial
  | array items =>
    simp only [barrier?] at h
    cases hi : FieldPath.index? segment with
    | none => simp [hi] at h
    | some i => exact ⟨i, hi, by simpa [hi] using h⟩
  | _ => cases h

theorem setAt_of_barrier {fault : WriteFault} (h : v.barrier? path segment = some fault)
    (value : Value) (rest : List String) :
    setAt path value (segment :: rest) v = (some fault, v) := by
  cases v with
  | document fields => cases h
  | array items =>
    simp only [barrier?] at h
    cases hi : FieldPath.index? segment with
    | none =>
      simp only [hi, Option.some.injEq] at h
      simp only [setAt, hi, h]
    | some i =>
      obtain ⟨hpad, hfault⟩ :
          maxArrayPadding < i - items.length ∧ .paddingTooLong i path = fault := by
        simpa [hi] using h
      simp only [setAt, hi, gt_iff_lt, if_pos hpad, hfault]
  | _ =>
    cases h
    rfl

/-- Nothing changes when what is below a segment is put there again. -/
theorem withChild_child {u : Value} (h : child v segment = some u) : v.withChild segment u = v := by
  cases v with
  | document fields => exact congrArg document (Document.insert_of_get h)
  | array items =>
    obtain ⟨i, hi, hu⟩ := Option.bind_eq_some_iff.mp h
    obtain ⟨hlen, rfl⟩ := List.getElem?_eq_some_iff.mp hu
    have hput : putItem items i items[i] = items := by
      rw [putItem_of_lt hlen, List.set_getElem_self]
    simp only [withChild, hi, Option.elim_some, hput]
  | _ => cases h

end Barrier

section Obstacle

variable {path : FieldPath} {segments : List String} {v : Value}

/-- Below an empty document a write makes all that it needs. -/
theorem obstacle?_empty (path : FieldPath) (segments : List String) :
    obstacle? path segments (document []) = none := by
  induction segments with
  | nil => rfl
  | cons segment rest ih => exact ih

/-- Something in the way stands below a segment that is there and holds no null. -/
theorem child_of_obstacle {segment : String} {fault : WriteFault}
    (h : obstacle? path segments (v.slot segment) = some fault) :
    child v segment = some (v.slot segment) := by
  rw [slot] at h ⊢
  cases hchild : child v segment with
  | none =>
    rw [hchild] at h
    exact absurd h (by simp [opened, obstacle?_empty])
  | some u =>
    rw [hchild] at h
    cases u with
    | null => exact absurd h (by simp [opened, obstacle?_empty])
    | _ => rfl

/-- A refused write has not changed anything. -/
theorem setAt_of_obstacle {fault : WriteFault} (h : obstacle? path segments v = some fault)
    (value : Value) : setAt path value segments v = (some fault, v) := by
  induction segments generalizing v with
  | nil => cases h
  | cons segment rest ih =>
    cases hbarrier : v.barrier? path segment with
    | some barrier =>
      rw [obstacle?, hbarrier, Option.some_or] at h
      cases h
      exact setAt_of_barrier hbarrier value rest
    | none =>
      rw [obstacle?, hbarrier, Option.none_or] at h
      rw [setAt_cons (admits_of_barrier hbarrier), ih h, withChild_child (child_of_obstacle h)]

theorem setAt_of_free (h : obstacle? path segments v = none) (value : Value) :
    (setAt path value segments v).1 = none := by
  induction segments generalizing v with
  | nil => rfl
  | cons segment rest ih =>
    obtain ⟨hbarrier, hrest⟩ := Option.or_eq_none_iff.mp h
    rw [setAt_cons (admits_of_barrier hbarrier)]
    exact ih hrest

end Obstacle

end Value

namespace Document

/-- What refuses a write at a path, which is the same for every value. At its first segment a null
is not replaced by a longer write. -/
def obstacle? (d : Document) (path : FieldPath) : Option WriteFault :=
  match path.segments with
  | [] => some .emptyPath
  | key :: rest => Value.obstacle? path rest ((get d key).getD (.document []))

theorem setPath_of_obstacle {d : Document} {path : FieldPath} {fault : WriteFault}
    (h : d.obstacle? path = some fault) (v : Value) : setPath d path v = (some fault, d) := by
  unfold obstacle? at h
  split at h
  · next hsegments =>
    cases h
    rw [setPath, hsegments]
  · next key rest hsegments =>
    rw [setPath_cons hsegments, Value.setAt_of_obstacle h]
    cases hslot : get d key with
    | none =>
      rw [hslot, Option.getD_none, Value.obstacle?_empty] at h
      cases h
    | some slot => rw [Option.getD_some, insert_of_get hslot]

theorem setPath_of_free {d : Document} {path : FieldPath} (h : d.obstacle? path = none)
    (v : Value) : (setPath d path v).1 = none := by
  unfold obstacle? at h
  split at h
  · cases h
  · next key rest hsegments =>
    rw [setPath_cons hsegments]
    exact Value.setAt_of_free h v

/-- A refused write leaves the document untouched. Which write is refused, and why, depends on the
document and the path alone, and what is not refused is written. -/
theorem refused_write_untouched (d : Document) (path : FieldPath) (v : Value) :
    (setPath d path v).1 = d.obstacle? path ∧
      (∀ fault, (setPath d path v).1 = some fault → (setPath d path v).2 = d) ∧
      ((setPath d path v).1 = none → getPath (setPath d path v).2 path = some v) := by
  cases h : d.obstacle? path with
  | none =>
    have hfree := setPath_of_free h v
    refine ⟨hfree, fun fault hfault => ?_, fun _ => getPath_setPath hfree⟩
    rw [hfree] at hfault
    cases hfault
  | some fault =>
    rw [setPath_of_obstacle h]
    exact ⟨rfl, fun _ _ => rfl, fun hnone => nomatch hnone⟩

/-- In a list of rows, a write below a text, one too far past the last row, and one into a null. -/
theorem refused_write_untouched_rows :
    let d : Document := [("rows", .array [.document [("title", .string "a")], .null])]
    let title : FieldPath := .ofString "rows[0].title.short"
    let far : FieldPath := .ofString "rows.2000000"
    setPath d title (.int32 1) = (some (.notAContainer "short" "String" title), d) ∧
      setPath d far (.int32 1) = (some (.paddingTooLong 2000000 far), d) ∧
      getPath (setPath d (.ofString "rows.1.title") (.int32 1)).2 (.ofString "rows.1.title") =
        some (.int32 1) := by
  intro d title far
  obtain ⟨-, htitle, -⟩ := refused_write_untouched d title (.int32 1)
  obtain ⟨-, hfar, -⟩ := refused_write_untouched d far (.int32 1)
  obtain ⟨-, -, hwritten⟩ := refused_write_untouched d (.ofString "rows.1.title") (.int32 1)
  have hft : (setPath d title (.int32 1)).1 = some (.notAContainer "short" "String" title) := by
    rfl
  have hff : (setPath d far (.int32 1)).1 = some (.paddingTooLong 2000000 far) := by
    rfl
  exact ⟨Prod.ext hft (htitle _ hft), Prod.ext hff (hfar _ hff), hwritten rfl⟩

end Document

end DocumentStore
