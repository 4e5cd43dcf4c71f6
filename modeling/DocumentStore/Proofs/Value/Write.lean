import DocumentStore.Proofs.Value.Document
import DocumentStore.Value.Path

/-! Reading after writing at a path. -/

namespace DocumentStore

namespace Document

theorem insert_insert_self (d : Document) (key : String) (v w : Value) :
    insert (insert d key v) key w = insert d key w := by
  induction d with
  | nil => simp [insert]
  | cons entry rest ih =>
    obtain ⟨k, u⟩ := entry
    by_cases hk : k = key <;> simp [insert, hk, ih]

theorem erase_of_get {d : Document} {key : String} (h : get d key = none) : erase d key = d := by
  induction d with
  | nil => rfl
  | cons entry rest ih =>
    obtain ⟨k, u⟩ := entry
    rw [get_cons] at h
    by_cases hk : k = key
    · simp [hk] at h
    · rw [if_neg hk] at h
      simp [erase, hk, ih h]

end Document

namespace Value

/-- Whether a write goes on below a segment of a container. -/
def Admits : Value → String → Prop
  | document _, _ => True
  | array items, segment =>
    ∃ i, FieldPath.index? segment = some i ∧ i - items.length ≤ maxArrayPadding
  | _, _ => False

/-- The items with one in its place, after nulls up to there. -/
def putItem (items : List Value) (i : Nat) (v : Value) : List Value :=
  (items ++ List.replicate (i + 1 - items.length) null).set i v

/-- A container with a value below a segment. -/
def withChild : Value → String → Value → Value
  | document fields, segment, v => document (Document.insert fields segment v)
  | array items, segment, v =>
    array ((FieldPath.index? segment).elim items (fun i => putItem items i v))
  | u, _, _ => u

/-- A container without what is below a segment. An array keeps a null in its place. -/
def withoutChild : Value → String → Value
  | document fields, segment => document (Document.erase fields segment)
  | array items, segment =>
    array ((FieldPath.index? segment).elim items (fun i => items.set i null))
  | v, _ => v

/-- What a longer write finds below a segment. -/
def slot (v : Value) (segment : String) : Value :=
  opened ((child v segment).getD null)

theorem getElem?_putItem (items : List Value) (i k : Nat) (v : Value) :
    (putItem items i v)[k]? =
      if k = i then some v else if k < i ∧ items.length ≤ k then some null else items[k]? := by
  rw [putItem, List.getElem?_set]
  by_cases hk : k = i
  · have hlen : k < (items ++ List.replicate (i + 1 - items.length) null).length := by
      simp only [List.length_append, List.length_replicate]
      omega
    rw [if_pos hk.symm, if_pos hk, if_pos (hk ▸ hlen)]
  · rw [if_neg (Ne.symm hk), if_neg hk, List.getElem?_append, List.getElem?_replicate]
    by_cases hlt : k < items.length
    · rw [if_pos hlt, if_neg (by omega)]
    · rw [if_neg hlt]
      by_cases hki : k < i
      · rw [if_pos (by omega), if_pos (by omega)]
      · rw [if_neg (by omega), if_neg (by omega), List.getElem?_eq_none (by omega)]

theorem length_putItem (items : List Value) (i : Nat) (v : Value) :
    (putItem items i v).length = max items.length (i + 1) := by
  simp only [putItem, List.length_set, List.length_append, List.length_replicate]
  omega

theorem putItem_putItem_self (items : List Value) (i : Nat) (v w : Value) :
    putItem (putItem items i v) i w = putItem items i w := by
  refine List.ext_getElem? fun k => ?_
  simp only [getElem?_putItem, length_putItem]
  by_cases hk : k = i
  · rw [if_pos hk, if_pos hk]
  · rw [if_neg hk, if_neg hk, if_neg (by omega), if_neg hk]

theorem putItem_of_lt {items : List Value} {i : Nat} (h : i < items.length) (v : Value) :
    putItem items i v = items.set i v := by
  have hpad : i + 1 - items.length = 0 := by omega
  rw [putItem, hpad, List.replicate_zero, List.append_nil]

theorem getD_padded (items : List Value) (i n : Nat) :
    (items ++ List.replicate n null).getD i null = items[i]?.getD null := by
  rw [List.getD_eq_getElem?_getD, List.getElem?_append, List.getElem?_replicate]
  by_cases hi : i < items.length
  · rw [if_pos hi]
  · rw [if_neg hi, List.getElem?_eq_none (by omega)]
    split <;> rfl

section Child

variable {v : Value} {segment : String}

theorem Admits.withChild {other : String} (h : v.Admits other) (segment : String) (u : Value) :
    (v.withChild segment u).Admits other := by
  cases v with
  | document fields => trivial
  | array items =>
    obtain ⟨i, hi, hpad⟩ := h
    refine ⟨i, hi, ?_⟩
    cases FieldPath.index? segment with
    | none => exact hpad
    | some j =>
      rw [Option.elim_some, length_putItem]
      omega
  | _ => exact h.elim

theorem child_withChild_self (h : v.Admits segment) (u : Value) :
    child (v.withChild segment u) segment = some u := by
  cases v with
  | document fields => exact Document.get_insert_self fields segment u
  | array items =>
    obtain ⟨i, hi, -⟩ := h
    simp [withChild, child, hi, getElem?_putItem]
  | _ => exact h.elim

theorem slot_withChild_self (h : v.Admits segment) (u : Value) :
    (v.withChild segment u).slot segment = u.opened := by
  rw [slot, child_withChild_self h]
  rfl

theorem withChild_withChild_self (v : Value) (segment : String) (u w : Value) :
    (v.withChild segment u).withChild segment w = v.withChild segment w := by
  cases v with
  | document fields => simp only [withChild, Document.insert_insert_self]
  | array items =>
    cases hi : FieldPath.index? segment <;> simp [withChild, hi, putItem_putItem_self]
  | _ => rfl

theorem opened_withChild (h : v.Admits segment) (u : Value) :
    (v.withChild segment u).opened = v.withChild segment u := by
  cases v with
  | document fields => rfl
  | array items => rfl
  | _ => exact h.elim

end Child

section Write

variable {path : FieldPath} {value v : Value} {segment : String} {rest : List String}

theorem admits_of_setAt (h : (setAt path value (segment :: rest) v).1 = none) :
    v.Admits segment := by
  cases v with
  | document fields => trivial
  | array items =>
    unfold setAt at h
    split at h
    · cases h
    · next i hi =>
      split at h
      · cases h
      · next hpad => exact ⟨i, hi, Nat.le_of_not_lt hpad⟩
  | _ => cases h

/-- A write below a segment is a write into what is found there. -/
theorem setAt_cons (h : v.Admits segment) :
    setAt path value (segment :: rest) v =
      ((setAt path value rest (v.slot segment)).1,
        v.withChild segment (setAt path value rest (v.slot segment)).2) := by
  cases v with
  | document fields => cases rest <;> simp [setAt, slot, child, withChild]
  | array items =>
    obtain ⟨i, hi, hpad⟩ := h
    have hchild : child (array items) segment = items[i]? := by simp [child, hi]
    cases rest with
    | nil => simp [setAt, withChild, putItem, hi, Nat.not_lt.mpr hpad]
    | cons next rest =>
      simp only [setAt, hi, Nat.not_lt.mpr hpad, if_false, List.isEmpty_cons,
        Bool.false_eq_true, getD_padded, slot, hchild, withChild, putItem, Option.elim_some]
  | _ => exact h.elim

/-- A write further down leaves a container, which the next one finds as it is. -/
theorem opened_setAt (h : (setAt path value (segment :: rest) v).1 = none) :
    (setAt path value (segment :: rest) v).2.opened = (setAt path value (segment :: rest) v).2 := by
  rw [setAt_cons (admits_of_setAt h)]
  exact opened_withChild (admits_of_setAt h) _

/-- What was written is read. -/
theorem getAt_setAt {segments : List String} (h : (setAt path value segments v).1 = none) :
    getAt (setAt path value segments v).2 segments = some value := by
  induction segments generalizing v with
  | nil => rfl
  | cons segment rest ih =>
    have hadmits := admits_of_setAt h
    rw [setAt_cons hadmits] at h ⊢
    rw [getAt, child_withChild_self hadmits]
    exact ih h

/-- The second of two equal writes changes nothing. -/
theorem setAt_setAt_self {segments : List String} (h : (setAt path value segments v).1 = none) :
    setAt path value segments (setAt path value segments v).2 =
      (none, (setAt path value segments v).2) := by
  induction segments generalizing v with
  | nil => rfl
  | cons segment rest ih =>
    have hadmits := admits_of_setAt h
    rw [setAt_cons hadmits] at h ⊢
    dsimp only at h ⊢
    rw [setAt_cons (hadmits.withChild segment _), slot_withChild_self hadmits,
      withChild_withChild_self]
    cases rest with
    | nil => rfl
    | cons next rest => rw [opened_setAt h, ih h]

end Write

section Removal

variable {v next : Value} {s : String} {rest segments : List String}

theorem admits_of_child (h : child v s = some next) : v.Admits s := by
  cases v with
  | document fields => trivial
  | array items =>
    obtain ⟨i, hi, hnext⟩ := Option.bind_eq_some_iff.mp h
    have hlen := (List.getElem?_eq_some_iff.mp hnext).1
    exact ⟨i, hi, by omega⟩
  | _ => cases h

theorem withoutChild_of_child_none (h : child v s = none) : v.withoutChild s = v := by
  cases v with
  | document fields => exact congrArg document (Document.erase_of_get h)
  | array items =>
    cases hi : FieldPath.index? s with
    | none => simp [withoutChild, hi]
    | some i =>
      have hlen : items.length ≤ i := by simpa [child, hi] using h
      simp [withoutChild, hi, List.set_eq_of_length_le hlen]
  | _ => rfl

theorem child_withoutChild_self (h : child v s = some next) :
    (∃ fields, v = document fields ∧ child (v.withoutChild s) s = none) ∨
      ∃ items items', v = array items ∧ v.withoutChild s = array items' ∧
        items'.length = items.length ∧ child (v.withoutChild s) s = some null := by
  cases v with
  | document fields => exact .inl ⟨fields, rfl, Document.get_erase_self fields s⟩
  | array items =>
    obtain ⟨i, hi, hnext⟩ := Option.bind_eq_some_iff.mp h
    have hlen := (List.getElem?_eq_some_iff.mp hnext).1
    refine .inr ⟨items, items.set i null, rfl, by simp [withoutChild, hi], by simp, ?_⟩
    simp [withoutChild, child, hi, hlen]
  | _ => cases h

theorem withoutChild_withoutChild_self (v : Value) (s : String) :
    (v.withoutChild s).withoutChild s = v.withoutChild s := by
  cases v with
  | document fields =>
    exact congrArg document (Document.erase_of_get (Document.get_erase_self fields s))
  | array items => cases hi : FieldPath.index? s <;> simp [withoutChild, hi]
  | _ => rfl

theorem removeAt_last (v : Value) (s : String) :
    removeAt [s] v = (child v s, v.withoutChild s) := by
  cases v with
  | array items => cases hi : FieldPath.index? s <;> simp [removeAt, child, withoutChild, hi]
  | _ => rfl

/-- A removal below a segment is a removal from what is found there. -/
theorem removeAt_of_child (h : child v s = some next) (hrest : rest ≠ []) :
    removeAt (s :: rest) v = ((removeAt rest next).1, v.withChild s (removeAt rest next).2) := by
  obtain ⟨r, rest, rfl⟩ := List.exists_cons_of_ne_nil hrest
  cases v with
  | document fields =>
    have hget : Document.get fields s = some next := h
    simp [removeAt, withChild, hget]
  | array items =>
    obtain ⟨i, hi, hnext⟩ := Option.bind_eq_some_iff.mp h
    have hlen := (List.getElem?_eq_some_iff.mp hnext).1
    simp [removeAt, withChild, hi, hnext, putItem_of_lt hlen]
  | _ => cases h

theorem removeAt_of_child_none (h : child v s = none) (rest : List String) :
    removeAt (s :: rest) v = (none, v) := by
  cases rest with
  | nil => rw [removeAt_last, h, withoutChild_of_child_none h]
  | cons r rest =>
    cases v with
    | document fields =>
      have hget : Document.get fields s = none := h
      simp [removeAt, hget]
    | array items =>
      cases hi : FieldPath.index? s with
      | none => simp [removeAt, hi]
      | some i =>
        have hnext : items[i]? = none := by simpa [child, hi] using h
        simp [removeAt, hi, hnext]
    | _ => rfl

/-- Nothing is read where something was taken out, or the null that is left in an array. -/
theorem getAt_removeAt (h : segments ≠ []) (v : Value) :
    getAt (removeAt segments v).2 segments = none ∨
      getAt (removeAt segments v).2 segments = some null := by
  induction segments generalizing v with
  | nil => exact absurd rfl h
  | cons s rest ih =>
    cases hchild : child v s with
    | none =>
      left
      rw [removeAt_of_child_none hchild, getAt, hchild, Option.bind_none]
    | some next =>
      by_cases hrest : rest = []
      · subst hrest
        rw [removeAt_last, getAt]
        rcases child_withoutChild_self hchild with ⟨-, -, hnone⟩ | ⟨-, -, -, -, -, hnull⟩
        · exact .inl (by rw [hnone, Option.bind_none])
        · exact .inr (by rw [hnull, Option.bind_some, getAt])
      · rw [removeAt_of_child hchild hrest, getAt, child_withChild_self (admits_of_child hchild),
          Option.bind_some]
        exact ih hrest next

theorem removeAt_removeAt_self (segments : List String) (v : Value) :
    (removeAt segments (removeAt segments v).2).2 = (removeAt segments v).2 := by
  induction segments generalizing v with
  | nil => simp [removeAt]
  | cons s rest ih =>
    cases hchild : child v s with
    | none => rw [removeAt_of_child_none hchild, removeAt_of_child_none hchild]
    | some next =>
      by_cases hrest : rest = []
      · subst hrest
        rw [removeAt_last, removeAt_last, withoutChild_withoutChild_self]
      · rw [removeAt_of_child hchild hrest,
          removeAt_of_child (child_withChild_self (admits_of_child hchild) _) hrest, ih,
          withChild_withChild_self]

end Removal

end Value

namespace Document

variable {d : Document} {path : FieldPath} {key : String} {rest : List String} {v : Value}

theorem setPath_cons (h : path.segments = key :: rest) (d : Document) (v : Value) :
    setPath d path v =
      ((Value.setAt path v rest ((get d key).getD (.document []))).1,
        insert d key (Value.setAt path v rest ((get d key).getD (.document []))).2) := by
  cases rest <;> simp [setPath, h, Value.setAt]

theorem segments_ne_nil_of_setPath (h : (setPath d path v).1 = none) : path.segments ≠ [] := by
  intro hsegments
  simp [setPath, hsegments] at h

theorem segments_ne_nil_of_getPath (h : getPath d path = some v) : path.segments ≠ [] := by
  intro hsegments
  rw [getPath, hsegments] at h
  cases h

theorem getPath_cons (h : path.segments = key :: rest) (d : Document) :
    getPath d path = (get d key).bind (fun next => next.getAt rest) := by
  rw [getPath, h]

theorem getPath_setPath (h : (setPath d path v).1 = none) :
    getPath (setPath d path v).2 path = some v := by
  obtain ⟨key, rest, hsegments⟩ := List.exists_cons_of_ne_nil (segments_ne_nil_of_setPath h)
  rw [setPath_cons hsegments] at h ⊢
  rw [getPath_cons hsegments, get_insert_self]
  exact Value.getAt_setAt h

theorem getPath_insert_of_ne {other : String} (d : Document) (u : Value)
    (hother : path.segments.head? ≠ some other) :
    getPath (insert d other u) path = getPath d path := by
  cases hsegments : path.segments with
  | nil => rw [getPath, getPath, hsegments]
  | cons key rest =>
    have hne : key ≠ other := by simpa [hsegments] using hother
    rw [getPath_cons hsegments, getPath_cons hsegments, get_insert_of_ne d u hne]

/-- A write is not undone by one of another field, so that it changes nothing when it is made
again. -/
theorem setPath_setPath_self {other : String} (h : (setPath d path v).1 = none) (u : Value)
    (hother : path.segments.head? ≠ some other) :
    setPath (insert (setPath d path v).2 other u) path v =
      (none, insert (setPath d path v).2 other u) := by
  obtain ⟨key, rest, hsegments⟩ := List.exists_cons_of_ne_nil (segments_ne_nil_of_setPath h)
  have hne : key ≠ other := by simpa [hsegments] using hother
  rw [setPath_cons hsegments] at h ⊢
  rw [setPath_cons hsegments d v]
  have hget : get (insert (insert d key (Value.setAt path v rest
      ((get d key).getD (.document []))).2) other u) key =
      some (Value.setAt path v rest ((get d key).getD (.document []))).2 := by
    rw [get_insert_of_ne _ _ hne, get_insert_self]
  rw [hget, Option.getD_some, Value.setAt_setAt_self h, insert_of_get hget]

theorem getAt_document (h : path.segments ≠ []) (d : Document) :
    Value.getAt (.document d) path.segments = getPath d path := by
  obtain ⟨key, rest, hsegments⟩ := List.exists_cons_of_ne_nil h
  rw [getPath_cons hsegments, hsegments]
  rfl

theorem removeAt_document (d : Document) (path : FieldPath) :
    (Value.removeAt path.segments (.document d)).2 = .document (removePath d path).2 := by
  unfold removePath
  split
  · next hsegments => rw [hsegments, Value.removeAt]
  · next key hsegments => rw [hsegments, Value.removeAt]
  · next key rest hrest hsegments =>
    rw [hsegments, Value.removeAt]
    · split
      · simp
      · simp
    · exact hrest

theorem getPath_removePath (h : path.segments ≠ []) (d : Document) :
    getPath (removePath d path).2 path = none ∨
      getPath (removePath d path).2 path = some .null := by
  rw [← getAt_document h, ← removeAt_document]
  exact Value.getAt_removeAt h _

/-- Where there is nothing to take out, there is nothing after a write of another field. -/
theorem removePath_insert_of_self {other : String} (h : (removePath d path).2 = d) (u : Value)
    (hother : path.segments.head? ≠ some other) :
    (removePath (insert d other u) path).2 = insert d other u := by
  have hget {key : String} {rest : List String} (hsegments : path.segments = key :: rest) :
      get (insert d other u) key = get d key := by
    refine get_insert_of_ne d u fun hkey => hother ?_
    rw [hsegments, hkey]
    rfl
  unfold removePath at h ⊢
  split
  · rfl
  · next key hsegments =>
    rw [hsegments] at h
    have habsent : get d key = none := by
      rw [← h]
      exact get_erase_self d key
    exact erase_of_get ((hget hsegments).trans habsent)
  · next key rest hrest hsegments =>
    rw [hget hsegments]
    cases hslot : get d key with
    | none => rfl
    | some next =>
      have hkept : insert d key (next.removeAt rest).2 = d := by simpa [hsegments, hslot] using h
      have hnext : get d key = some (next.removeAt rest).2 :=
        (congrArg (get · key) hkept).symm.trans (get_insert_self d key _)
      exact insert_of_get ((hget hsegments).trans hnext)

theorem removePath_removePath_self (d : Document) (path : FieldPath) :
    (removePath (removePath d path).2 path).2 = (removePath d path).2 := by
  refine Value.document.inj ?_
  rw [← removeAt_document, ← removeAt_document]
  exact Value.removeAt_removeAt_self _ _

end Document

end DocumentStore
