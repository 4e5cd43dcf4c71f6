import DocumentStore.Proofs.Value.Write

/-! What a write at a path leaves as it was. Paths that part from it read what they read before, but
for the nulls that pad an array up to the index written. No key changes its place, no container
becomes one of another kind, and at most one array gets longer. -/

namespace DocumentStore

namespace Document

theorem keys_insert_prefix (d : Document) (key : String) (v : Value) :
    d.map Prod.fst <+: (insert d key v).map Prod.fst := by
  induction d with
  | nil => exact List.nil_prefix
  | cons entry rest ih =>
    obtain ⟨k, u⟩ := entry
    by_cases hk : k = key
    · rw [insert, if_pos hk]
      exact List.prefix_refl _
    · rw [insert, if_neg hk, List.map_cons, List.map_cons]
      exact List.cons_prefix_cons.mpr ⟨rfl, ih⟩

end Document

/-- One step down from a container. A path may spell an index in several ways, but steps lead to
each value in one way. -/
inductive Step where
  | field (key : String)
  | item (index : Nat)
deriving DecidableEq

namespace Value

def step? (segment : String) : Value → Option Step
  | document _ => some (.field segment)
  | array _ => (FieldPath.index? segment).map .item
  | _ => none

def atStep : Value → Step → Option Value
  | document fields, .field key => Document.get fields key
  | array items, .item i => items[i]?
  | _, _ => none

/-- The value at a place, which is given by the steps down to it. -/
def atPlace : Value → List Step → Option Value
  | v, [] => some v
  | v, step :: rest => (v.atStep step).bind (fun next => next.atPlace rest)

/-- The place that a write at a path changes. What stands on the way decides whether a segment is a
key or an index, and where nothing does the write makes documents. -/
def writtenPlace : List String → Value → Option (List Step)
  | [], _ => some []
  | segment :: rest, v => do
    return (← v.step? segment) :: (← writtenPlace rest (v.slot segment))

/-- The paths go the same way down to a container and part there, at segments that are not two
spellings of one index of an array. -/
def Parts (v : Value) (ss ts : List String) : Prop :=
  ∃ shared s t, shared ++ [s] <+: ss ∧ shared ++ [t] <+: ts ∧ s ≠ t ∧
    ∀ items, v.getAt shared = some (array items) →
      ∀ i, FieldPath.index? s = some i → FieldPath.index? t ≠ some i

/-- A write at the first index pads an array from its end to beyond the second index. -/
def PadsAt (v : Value) (s t : String) : Prop :=
  ∃ items i j, v = array items ∧ FieldPath.index? s = some i ∧ FieldPath.index? t = some j ∧
    items.length ≤ j ∧ j < i

/-- The second path ends in an array, at an index that a write at the first path pads. -/
def Pads (v : Value) (ss ts : List String) : Prop :=
  ∃ shared s t w, shared ++ [s] <+: ss ∧ ts = shared ++ [t] ∧ v.getAt shared = some w ∧ w.PadsAt s t

/-- A value with at most new keys behind those of a document, or at most so many items behind those
of an array. -/
def GrowsBy (n : Nat) : Value → Value → Prop
  | document fields, document fields' => fields.map Prod.fst <+: fields'.map Prod.fst
  | array items, array items' =>
    items.length ≤ items'.length ∧ items'.length ≤ items.length + n
  | v, v' => v' = v

theorem GrowsBy.refl (n : Nat) (v : Value) : v.GrowsBy n v := by
  cases v with
  | document fields => exact List.prefix_refl _
  | array items => exact ⟨Nat.le_refl _, Nat.le_add_right _ _⟩
  | _ => rfl

section Read

variable {v : Value} {s t : String} {shared ss ts : List String}

theorem getAt_append (v : Value) (ss ts : List String) :
    getAt v (ss ++ ts) = (getAt v ss).bind (fun next => next.getAt ts) := by
  induction ss generalizing v with
  | nil => rfl
  | cons s ss ih =>
    rw [List.cons_append, getAt, getAt]
    cases child v s with
    | none => rfl
    | some next => exact ih next

/-- What a longer write finds at the end of a path: a missing value and a null give place to a
document. -/
def foundAt (v : Value) (shared : List String) : Value :=
  opened ((v.getAt shared).getD null)

theorem foundAt_cons (v : Value) (s : String) (shared : List String) :
    v.foundAt (s :: shared) = (v.slot s).foundAt shared := by
  rw [foundAt, foundAt, slot, getAt]
  cases child v s with
  | none => cases shared <;> rfl
  | some next =>
    cases next with
    | null => cases shared <;> rfl
    | _ => rfl

theorem foundAt_eq_array_iff {items : List Value} :
    v.foundAt shared = array items ↔ v.getAt shared = some (array items) := by
  rw [foundAt]
  cases v.getAt shared with
  | none => simp [opened]
  | some next => cases next <;> simp [opened]

theorem getAt_foundAt (v : Value) (shared : List String) (t : String) (ts : List String) :
    (v.foundAt shared).getAt (t :: ts) = v.getAt (shared ++ t :: ts) := by
  rw [getAt_append, foundAt]
  cases v.getAt shared with
  | none => rfl
  | some next =>
    cases next with
    | null => rfl
    | _ => rfl

end Read

section Container

variable {v : Value} {s t : String}

theorem opened_of_admits (h : v.Admits s) : v.opened = v := by
  cases v with
  | document fields => rfl
  | array items => rfl
  | _ => exact h.elim

theorem child_withChild_of_ne (h : v.Admits s) (hne : s ≠ t)
    (hapart : ∀ items, v = array items →
      ∀ i, FieldPath.index? s = some i → FieldPath.index? t ≠ some i)
    (hpads : ¬ v.PadsAt s t) (u : Value) : child (v.withChild s u) t = child v t := by
  cases v with
  | document fields => exact Document.get_insert_of_ne fields u hne.symm
  | array items =>
    obtain ⟨i, hi, -⟩ := h
    cases hj : FieldPath.index? t with
    | none => simp [withChild, child, hj]
    | some j =>
      have hji : j ≠ i := fun e => hapart items rfl i hi (e ▸ hj)
      have hnew : ¬ (j < i ∧ items.length ≤ j) := fun hnew =>
        hpads ⟨items, i, j, rfl, hi, hj, hnew.2, hnew.1⟩
      simp only [withChild, child, hi, hj, Option.elim_some, Option.bind_some, getElem?_putItem,
        if_neg hji, if_neg hnew]
  | _ => exact h.elim

theorem child_withChild_of_padsAt (h : v.PadsAt s t) (u : Value) :
    child v t = none ∧ child (v.withChild s u) t = some null := by
  obtain ⟨items, i, j, rfl, hi, hj, hlen, hji⟩ := h
  constructor
  · simp [child, hj, hlen]
  · simp only [withChild, child, hi, hj, Option.elim_some, Option.bind_some, getElem?_putItem,
      if_neg (Nat.ne_of_lt hji), if_pos (And.intro hji hlen)]

/-- The step of a segment leads to the value below it, and no other step to what is written
there. -/
theorem atStep_withChild (h : v.Admits s) : ∃ step, v.step? s = some step ∧
    v.atStep step = v.child s ∧ ∀ u, (v.withChild s u).atStep step = some u ∧
      ∀ other w, other ≠ step → v.atStep other = some w →
        (v.withChild s u).atStep other = some w := by
  cases v with
  | document fields =>
    refine ⟨.field s, rfl, rfl, fun u => ⟨Document.get_insert_self fields s u, ?_⟩⟩
    intro other w hother hw
    cases other with
    | field key =>
      have hkey : key ≠ s := fun e => hother (by rw [e])
      exact (Document.get_insert_of_ne fields u hkey).trans hw
    | item j => cases hw
  | array items =>
    obtain ⟨i, hi, -⟩ := h
    refine ⟨.item i, by simp [step?, hi], by simp [atStep, child, hi], fun u => ⟨?_, ?_⟩⟩
    · simp [withChild, atStep, hi, getElem?_putItem]
    · intro other w hother hw
      cases other with
      | field key => cases hw
      | item j =>
        have hji : j ≠ i := fun e => hother (by rw [e])
        have hj : j < items.length := (List.getElem?_eq_some_iff.mp hw).1
        simp only [withChild, atStep, hi, Option.elim_some, getElem?_putItem]
        rw [if_neg hji, if_neg (by omega)]
        exact hw
  | _ => exact h.elim

theorem growsBy_withChild (h : v.Admits s) (u : Value) :
    v.GrowsBy (if v.child s = none then maxArrayPadding + 1 else 0) (v.withChild s u) := by
  cases v with
  | document fields => exact Document.keys_insert_prefix fields s u
  | array items =>
    obtain ⟨i, hi, hpad⟩ := h
    have hchild : child (array items) s = items[i]? := by simp [child, hi]
    rw [hchild, withChild, hi, Option.elim_some, GrowsBy, length_putItem]
    by_cases hlen : items.length ≤ i
    · rw [if_pos (List.getElem?_eq_none hlen)]
      omega
    · rw [if_neg (by simpa using hlen)]
      omega
  | _ => exact h.elim

end Container

theorem eq_null_of_atPlace_null {place : List Step} {u : Value}
    (h : atPlace null place = some u) : u = null := by
  cases place with
  | nil => exact (Option.some.inj h).symm
  | cons step place => cases h

section Write

variable {path : FieldPath} {value v : Value} {s : String} {shared ss ts : List String}

/-- A write leaves each container on its way with a new value below the next segment. -/
theorem getAt_setAt_shared (h : (setAt path value (shared ++ s :: ss) v).1 = none) :
    (v.foundAt shared).Admits s ∧ ∃ u,
      getAt (setAt path value (shared ++ s :: ss) v).2 shared =
        some ((v.foundAt shared).withChild s u) := by
  induction shared generalizing v with
  | nil =>
    have hadmits := admits_of_setAt h
    have hfound : v.foundAt [] = v := opened_of_admits hadmits
    rw [List.nil_append, setAt_cons hadmits, hfound]
    exact ⟨hadmits, _, rfl⟩
  | cons c shared ih =>
    rw [List.cons_append] at h ⊢
    have hadmits := admits_of_setAt h
    rw [setAt_cons hadmits] at h ⊢
    rw [getAt, child_withChild_self hadmits, foundAt_cons]
    exact ih h

/-- What is read below a container that the write goes through is read in the container as it is
then. -/
theorem getAt_setAt_below (h : (setAt path value (shared ++ s :: ss) v).1 = none) :
    (v.foundAt shared).Admits s ∧ ∃ u, ∀ t ts,
      getAt (setAt path value (shared ++ s :: ss) v).2 (shared ++ t :: ts) =
        (child ((v.foundAt shared).withChild s u) t).bind (fun next => next.getAt ts) := by
  obtain ⟨hadmits, u, hafter⟩ := getAt_setAt_shared h
  refine ⟨hadmits, u, fun t ts => ?_⟩
  rw [getAt_append, hafter, Option.bind_some, getAt]

theorem getAt_setAt_of_pads (h : (setAt path value ss v).1 = none) (hpads : v.Pads ss ts) :
    getAt v ts = none ∧ getAt (setAt path value ss v).2 ts = some null := by
  obtain ⟨shared, s, t, w, ⟨ss, rfl⟩, rfl, hget, hpads⟩ := hpads
  rw [List.append_assoc, List.singleton_append] at h ⊢
  obtain ⟨-, u, hread⟩ := getAt_setAt_below h
  have hfound : v.foundAt shared = w := by
    obtain ⟨items, -, -, rfl, -⟩ := hpads
    exact foundAt_eq_array_iff.mpr hget
  obtain ⟨hnone, hnull⟩ := child_withChild_of_padsAt hpads u
  rw [hread, hfound, hnull, getAt_append, hget, Option.bind_some, getAt, hnone]
  exact ⟨rfl, rfl⟩

/-- Past the end of a padded array nothing is read below the nulls, as nothing was read before. -/
theorem getAt_setAt_of_parts (h : (setAt path value ss v).1 = none) (hparts : v.Parts ss ts)
    (hpads : ¬ v.Pads ss ts) : getAt (setAt path value ss v).2 ts = getAt v ts := by
  obtain ⟨shared, s, t, ⟨ss, rfl⟩, ⟨ts, rfl⟩, hne, hapart⟩ := hparts
  simp only [List.append_assoc, List.singleton_append] at h ⊢
  obtain ⟨hadmits, u, hread⟩ := getAt_setAt_below h
  rw [hread, ← getAt_foundAt, getAt]
  by_cases hat : (v.foundAt shared).PadsAt s t
  · obtain ⟨hnone, hnull⟩ := child_withChild_of_padsAt hat u
    rw [hnone, hnull]
    cases ts with
    | nil =>
      obtain ⟨items, i, j, he, hindices⟩ := hat
      exact absurd ⟨shared, s, t, array items, by simp, by simp, foundAt_eq_array_iff.mp he,
        items, i, j, rfl, hindices⟩ hpads
    | cons next ts => rfl
  · have happart : ∀ items, v.foundAt shared = array items →
        ∀ i, FieldPath.index? s = some i → FieldPath.index? t ≠ some i :=
      fun items he => hapart items (foundAt_eq_array_iff.mp he)
    rw [child_withChild_of_ne hadmits hne happart hat]

/-- Containers outside of what is written stay where they are. The induction follows the write: as
soon as it makes an item of its own, nothing that was there is below it, so that no other array is
extended further down. -/
theorem growsBy_setAt {segments : List String} (h : (setAt path value segments v).1 = none) :
    ∃ written widened, v.writtenPlace segments = some written ∧
      (setAt path value segments v).2.atPlace written = some value ∧
      ∀ place u, ¬ written <+: place → u ≠ null →
        v.atPlace place = some u → ∃ u', (setAt path value segments v).2.atPlace place = some u' ∧
          u.GrowsBy (if place = widened then maxArrayPadding + 1 else 0) u' := by
  induction segments generalizing v with
  | nil => exact ⟨[], [], rfl, rfl, fun place u hplace => absurd List.nil_prefix hplace⟩
  | cons segment rest ih =>
    have hadmits := admits_of_setAt h
    rw [setAt_cons hadmits] at h ⊢
    obtain ⟨written, widened, hwritten, hvalue, hrest⟩ := ih h
    obtain ⟨step, hstep, hbelow, hchild⟩ := atStep_withChild hadmits
    obtain ⟨hself, hothers⟩ := hchild (setAt path value rest (v.slot segment)).2
    refine ⟨step :: written, if v.child segment = none then [] else step :: widened,
      by simp [writtenPlace, hstep, hwritten], by rw [atPlace, hself]; exact hvalue, ?_⟩
    intro place u hplace hu hat
    cases place with
    | nil =>
      cases hat
      refine ⟨_, rfl, ?_⟩
      have hgrows := growsBy_withChild hadmits (setAt path value rest (v.slot segment)).2
      by_cases hnew : v.child segment = none
      · rw [if_pos hnew] at hgrows ⊢
        exact hgrows
      · rw [if_neg hnew] at hgrows ⊢
        exact hgrows
    | cons other place =>
      rw [atPlace, Option.bind_eq_some_iff] at hat
      obtain ⟨w, hw, hat⟩ := hat
      by_cases hother : other = step
      · subst hother
        rw [hbelow] at hw
        have hslot : v.slot segment = w := by
          rw [slot, hw]
          cases w with
          | null => exact absurd (eq_null_of_atPlace_null hat) hu
          | _ => rfl
        have hplace' : ¬ written <+: place := fun hpre =>
          hplace (List.cons_prefix_cons.mpr ⟨rfl, hpre⟩)
        obtain ⟨u', hu', hgrows⟩ := hrest place u hplace' hu (hslot ▸ hat)
        refine ⟨u', ?_, ?_⟩
        · rw [atPlace, hself]
          exact hu'
        · simpa [hw] using hgrows
      · refine ⟨u, ?_, GrowsBy.refl _ u⟩
        rw [atPlace, hothers other w hother hw]
        exact hat

end Write

end Value

namespace Document

variable {d : Document} {path : FieldPath} {v : Value}

/-- A write at a path of a document is one in the value that is the document. -/
theorem setAt_document (h : (setPath d path v).1 = none) :
    Value.setAt path v path.segments (.document d) = (none, .document (setPath d path v).2) := by
  obtain ⟨key, rest, hsegments⟩ := List.exists_cons_of_ne_nil (segments_ne_nil_of_setPath h)
  rw [setPath_cons hsegments] at h ⊢
  have hadmits : (Value.document d).Admits key := trivial
  have hslot : Value.setAt path v rest ((Value.document d).slot key) =
      Value.setAt path v rest ((get d key).getD (.document [])) := by
    rw [Value.slot, Value.child]
    cases hget : get d key with
    | none => rfl
    | some next =>
      cases next with
      | null =>
        cases rest with
        | nil => rfl
        | cons segment rest => rw [hget] at h; cases h
      | _ => rfl
  rw [hsegments, Value.setAt_cons hadmits, hslot, h]
  rfl

/-- What is written is read back, and a path that parts from the one written reads what it read
before, except that a null is read at an index up to which an array was padded. Outside of the
place written every value stays: documents keep their keys in order, and one array at most gets
longer. -/
theorem setPath_frame (h : (setPath d path v).1 = none) :
    getPath (setPath d path v).2 path = some v ∧
    (∀ other : FieldPath, (Value.document d).Parts path.segments other.segments →
      (¬ (Value.document d).Pads path.segments other.segments →
        getPath (setPath d path v).2 other = getPath d other) ∧
      ((Value.document d).Pads path.segments other.segments →
        getPath d other = none ∧ getPath (setPath d path v).2 other = some .null)) ∧
    ∃ written widened, (Value.document d).writtenPlace path.segments = some written ∧
      (Value.document (setPath d path v).2).atPlace written = some v ∧
      ∀ place u, ¬ written <+: place → u ≠ .null → (Value.document d).atPlace place = some u →
        ∃ u', (Value.document (setPath d path v).2).atPlace place = some u' ∧
          u.GrowsBy (if place = widened then maxArrayPadding + 1 else 0) u' := by
  have hset := setAt_document h
  have hfault : (Value.setAt path v path.segments (.document d)).1 = none := by rw [hset]
  have hafter : (Value.setAt path v path.segments (.document d)).2 =
      .document (setPath d path v).2 := by rw [hset]
  refine ⟨getPath_setPath h, ?_, ?_⟩
  · intro other hparts
    have hother : other.segments ≠ [] := by
      obtain ⟨shared, -, t, -, ⟨ts, hts⟩, -⟩ := hparts
      simp [← hts]
    rw [← getAt_document hother, ← getAt_document hother, ← hafter]
    exact ⟨Value.getAt_setAt_of_parts hfault hparts, Value.getAt_setAt_of_pads hfault⟩
  · rw [← hafter]
    exact Value.growsBy_setAt hfault

/-- A write at the fourth row keeps the first, and the third is a null from then on. -/
theorem setPath_frame_rows :
    let d : Document := [("rows", .array [.document [("title", .string "a")]]), ("size", .int32 1)]
    let d' : Document := (setPath d (.ofString "rows[3].title") (.string "b")).2
    getPath d' (.ofString "rows.3.title") = some (.string "b") ∧
      getPath d' (.ofString "rows.0.title") = some (.string "a") ∧
      getPath d' (.ofString "rows.2") = some .null ∧
      ∃ fields, (Value.document d').atPlace [] = some (.document fields) ∧
        ["rows", "size"] <+: fields.map Prod.fst := by
  intro d d'
  have hset : (setPath d (.ofString "rows[3].title") (.string "b")).1 = none := rfl
  obtain ⟨hread, hothers, written, widened, hwritten, -, hgrows⟩ := setPath_frame hset
  have hfirst : (Value.document d).Parts ["rows", "3", "title"] ["rows", "0", "title"] := by
    refine ⟨["rows"], "3", "0", ⟨["title"], rfl⟩, ⟨["title"], rfl⟩, by decide, ?_⟩
    rintro items - i hi hi'
    cases hi
    exact absurd hi' (by decide +kernel)
  have hthird : (Value.document d).Pads ["rows", "3", "title"] ["rows", "2"] :=
    ⟨["rows"], "3", "2", .array [.document [("title", .string "a")]], ⟨["title"], rfl⟩, rfl, rfl,
      _, 3, 2, rfl, rfl, rfl, by decide, by decide⟩
  have hparts : (Value.document d).Parts ["rows", "3", "title"] ["rows", "2"] := by
    refine ⟨["rows"], "3", "2", ⟨["title"], rfl⟩, ⟨[], rfl⟩, by decide, ?_⟩
    rintro items - i hi hi'
    cases hi
    exact absurd hi' (by decide +kernel)
  refine ⟨hread, ((hothers (.ofString "rows.0.title") hfirst).1 ?_).trans rfl,
    ((hothers (.ofString "rows.2") hparts).2 hthird).2, ?_⟩
  · rintro ⟨shared, s, t, w, ⟨ss, hss⟩, hts, -⟩
    have hlast : ["rows", "0"] ++ ["title"] = shared ++ [t] := hts
    obtain ⟨rfl, -⟩ := List.append_inj' hlast rfl
    exact absurd (List.cons.inj (List.cons.inj hss).2).1 (by decide)
  · have hplace : ¬ written <+: [] := by
      rintro hnil
      rw [List.prefix_nil.mp hnil] at hwritten
      exact absurd hwritten (by decide +kernel)
    obtain ⟨u', hu', hgrow⟩ := hgrows [] (.document d) hplace nofun rfl
    cases u' with
    | document fields => exact ⟨fields, hu', hgrow⟩
    | _ => cases hgrow

end Document

end DocumentStore
