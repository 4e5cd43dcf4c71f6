import DocumentStore.Proofs.Value.Write
import DocumentStore.Value.Tagged

/-! Values without tags. A value in which no document has a tag for a key is read as data in every
mode, and it stays so under removals below it and under writes whose paths have no tags either. -/

namespace DocumentStore

def Tagged.isTag (key : String) : Bool :=
  key == codeKey || key == scopeKey || isName key

namespace Value

mutual

def isTagFree : Value → Bool
  | array items => itemsTagFree items
  | document fields => fieldsTagFree fields
  | scopedCode _ scope => fieldsTagFree scope
  | _ => true

def itemsTagFree : List Value → Bool
  | [] => true
  | v :: vs => isTagFree v && itemsTagFree vs

def fieldsTagFree : List (String × Value) → Bool
  | [] => true
  | (key, v) :: rest => !Tagged.isTag key && isTagFree v && fieldsTagFree rest

end

theorem itemsTagFree_iff {items : List Value} :
    itemsTagFree items = true ↔ ∀ v ∈ items, v.isTagFree = true := by
  induction items with
  | nil => simp [itemsTagFree]
  | cons v vs ih => simp [itemsTagFree, ih]

theorem fieldsTagFree_iff {fields : List (String × Value)} :
    fieldsTagFree fields = true ↔
      ∀ entry ∈ fields, Tagged.isTag entry.1 = false ∧ entry.2.isTagFree = true := by
  induction fields with
  | nil => simp [fieldsTagFree]
  | cons entry rest ih => simp [fieldsTagFree, ih, and_assoc]

theorem untaggedFields_cons (mode : Strictness) {key : String} (h : Tagged.isTag key = false)
    (v : Value) (rest : List (String × Value)) :
    untaggedFields mode ((key, v) :: rest) = (do
      let v ← untagged mode v
      let (fields, whole) ← untaggedFields mode rest
      return ((key, v) :: fields, whole)) := by
  simp only [Tagged.isTag, Bool.or_eq_false_iff, beq_eq_false_iff_ne] at h
  obtain ⟨⟨hcode, hscope⟩, hname⟩ := h
  conv => lhs; unfold untaggedFields
  rw [if_neg hcode, if_neg hscope, if_neg (by simp [hname])]

section Reading

variable (mode : Strictness)

mutual

theorem exists_untagged (v : Value) (h : v.isTagFree = true) : ∃ u, untagged mode v = .ok u := by
  cases v with
  | array items =>
    obtain ⟨us, hus⟩ := exists_untaggedItems items h
    exact ⟨_, by rw [untagged, hus]; rfl⟩
  | document fields =>
    obtain ⟨us, hus⟩ := exists_untaggedFields fields h
    exact ⟨_, by rw [untagged, hus]; rfl⟩
  | scopedCode s scope =>
    obtain ⟨us, hus⟩ := exists_untaggedFields scope h
    exact ⟨_, by rw [untagged, hus]; rfl⟩
  | regex pattern options => exact ⟨_, rfl⟩
  | _ => exact ⟨_, rfl⟩

theorem exists_untaggedItems (items : List Value) (h : itemsTagFree items = true) :
    ∃ us, untaggedItems mode items = .ok us := by
  cases items with
  | nil => exact ⟨_, by rw [untaggedItems]⟩
  | cons v vs =>
    rw [itemsTagFree, Bool.and_eq_true] at h
    obtain ⟨u, hu⟩ := exists_untagged v h.1
    obtain ⟨us, hus⟩ := exists_untaggedItems vs h.2
    exact ⟨_, by rw [untaggedItems, hu, hus]; rfl⟩

theorem exists_untaggedFields (fields : List (String × Value)) (h : fieldsTagFree fields = true) :
    ∃ us, untaggedFields mode fields = .ok (us, none) := by
  cases fields with
  | nil => exact ⟨_, by rw [untaggedFields]⟩
  | cons entry rest =>
    obtain ⟨key, v⟩ := entry
    rw [fieldsTagFree, Bool.and_eq_true, Bool.and_eq_true, Bool.not_eq_true'] at h
    obtain ⟨u, hu⟩ := exists_untagged v h.1.2
    obtain ⟨us, hus⟩ := exists_untaggedFields rest h.2
    refine ⟨(key, u) :: us, ?_⟩
    rw [untaggedFields_cons mode h.1.1, hu, hus]
    rfl

end

end Reading

theorem fieldsTagFree_insert {fields : Document} {key : String} {v : Value}
    (h : fieldsTagFree fields = true) (hk : Tagged.isTag key = false) (hv : v.isTagFree = true) :
    fieldsTagFree (Document.insert fields key v) = true := by
  rw [fieldsTagFree_iff] at h ⊢
  intro entry hentry
  rcases Document.mem_of_mem_insert hentry with rfl | hentry
  · exact ⟨hk, hv⟩
  · exact h entry hentry

theorem fieldsTagFree_erase {fields : Document} (key : String) (h : fieldsTagFree fields = true) :
    fieldsTagFree (Document.erase fields key) = true := by
  rw [fieldsTagFree_iff] at h ⊢
  exact fun entry hentry => h entry (Document.mem_of_mem_erase hentry)

theorem isTagFree_of_get {fields : Document} {key : String} {v : Value}
    (h : fieldsTagFree fields = true) (hv : Document.get fields key = some v) :
    v.isTagFree = true :=
  (fieldsTagFree_iff.mp h _ (Document.mem_of_get hv)).2

theorem isTag_of_get {fields : Document} {key : String} {v : Value}
    (h : fieldsTagFree fields = true) (hv : Document.get fields key = some v) :
    Tagged.isTag key = false :=
  (fieldsTagFree_iff.mp h _ (Document.mem_of_get hv)).1

theorem itemsTagFree_set {items : List Value} {v : Value} (i : Nat)
    (h : itemsTagFree items = true) (hv : v.isTagFree = true) :
    itemsTagFree (items.set i v) = true := by
  rw [itemsTagFree_iff] at h ⊢
  intro u hu
  rcases List.mem_or_eq_of_mem_set hu with hu | rfl
  · exact h u hu
  · exact hv

theorem itemsTagFree_pad {items : List Value} (n : Nat) (h : itemsTagFree items = true) :
    itemsTagFree (items ++ List.replicate n null) = true := by
  rw [itemsTagFree_iff] at h ⊢
  intro u hu
  rcases List.mem_append.mp hu with hu | hu
  · exact h u hu
  · rw [List.eq_of_mem_replicate hu]
    rfl

theorem isTagFree_getD {items : List Value} (i : Nat) (h : itemsTagFree items = true) :
    (items.getD i null).isTagFree = true := by
  rw [List.getD_eq_getElem?_getD]
  cases hi : items[i]? with
  | none => rfl
  | some v => exact itemsTagFree_iff.mp h v (List.mem_of_getElem? hi)

theorem isTagFree_opened {v : Value} (h : v.isTagFree = true) : v.opened.isTagFree = true := by
  cases v with
  | null => rfl
  | _ => exact h

theorem isTagFree_setAt (path : FieldPath) {value : Value} (hv : value.isTagFree = true)
    {segments : List String} (hs : ∀ s ∈ segments, Tagged.isTag s = false) {v : Value}
    (h : v.isTagFree = true) : (setAt path value segments v).2.isTagFree = true := by
  induction segments generalizing v with
  | nil => exact hv
  | cons segment rest ih =>
    have hsegment := hs segment (by simp)
    have hrest := fun s hs' => hs s (List.mem_cons_of_mem segment hs')
    cases v with
    | document fields =>
      unfold setAt
      split
      · exact fieldsTagFree_insert h hsegment hv
      · refine fieldsTagFree_insert h hsegment (ih hrest (isTagFree_opened ?_))
        cases hget : Document.get fields segment with
        | none => rfl
        | some slot => exact isTagFree_of_get h hget
    | array items =>
      unfold setAt
      split
      · exact h
      · next i _ =>
        split
        · exact h
        · have hpadded := itemsTagFree_pad (i + 1 - items.length) h
          split
          · exact itemsTagFree_set i hpadded hv
          · have hitem := isTagFree_getD i hpadded
            exact itemsTagFree_set i hpadded (ih hrest (isTagFree_opened hitem))
    | _ => exact h

theorem isTagFree_removeAt (segments : List String) {v : Value} (h : v.isTagFree = true) :
    (removeAt segments v).2.isTagFree = true := by
  fun_induction removeAt segments v with
  | case2 segment fields => exact fieldsTagFree_erase segment h
  | case4 segment items i => exact itemsTagFree_set i h rfl
  | case6 segment rest fields _ next hnext removed next' hremoved ih =>
    rw [hremoved] at ih
    exact fieldsTagFree_insert h (isTag_of_get h hnext) (ih (isTagFree_of_get h hnext))
  | case9 segment rest items _ i hi next hnext removed next' hremoved ih =>
    rw [hremoved] at ih
    exact itemsTagFree_set i h (ih (itemsTagFree_iff.mp h next (List.mem_of_getElem? hnext)))
  | _ => exact h

end Value

end DocumentStore
