import DocumentStore.Proofs.Value.Frame

/-! Writes at paths that diverge. Neither undoes the other, and both orders leave the same value but
for the order in which keys were written. -/

namespace DocumentStore

namespace FieldPath

/-- Two segments that name two children of every container. -/
def Apart (s t : String) : Prop :=
  s ≠ t ∧ ∀ i, index? s = some i → index? t ≠ some i

/-- Neither path starts with the other, and they part at segments that are not two spellings of one
array index. -/
def Diverge : List String → List String → Prop
  | s :: ss, t :: ts => Apart s t ∨ s = t ∧ Diverge ss ts
  | _, _ => False

theorem Apart.symm {s t : String} (h : Apart s t) : Apart t s :=
  ⟨h.1.symm, fun i ht hs => h.2 i hs ht⟩

theorem Diverge.symm {ss ts : List String} (h : Diverge ss ts) : Diverge ts ss := by
  induction ss generalizing ts with
  | nil => exact h.elim
  | cons s ss ih =>
    cases ts with
    | nil => exact h.elim
    | cons t ts => exact h.imp Apart.symm fun ⟨he, hrest⟩ => ⟨he.symm, ih hrest⟩

end FieldPath

namespace Value

open FieldPath (Apart Diverge)

/-- Equal but for the order of keys in documents. -/
inductive Reordered : Value → Value → Prop
  | refl (v : Value) : Reordered v v
  | array {as bs : List Value} (hlength : as.length = bs.length)
    (h : ∀ i : Nat, Option.Rel Reordered as[i]? bs[i]?) : Reordered (array as) (array bs)
  | document {a b : Document} (hkeys : (a.map Prod.fst).Perm (b.map Prod.fst))
    (h : ∀ key, Option.Rel Reordered (Document.get a key) (Document.get b key)) :
    Reordered (document a) (document b)

theorem Reordered.option (o : Option Value) : Option.Rel Reordered o o := by
  cases o with
  | none => exact .none
  | some v => exact .some (.refl v)

theorem sameItems_iff {as bs : List Value} : sameItems as bs = true ↔
    as.length = bs.length ∧
      ∀ (i : Nat) (a : Value), as[i]? = some a → ∃ b, bs[i]? = some b ∧ a.same b = true := by
  induction as generalizing bs with
  | nil => cases bs <;> simp [sameItems]
  | cons a as ih =>
    cases bs with
    | nil => simp [sameItems]
    | cons b bs =>
      rw [sameItems, Bool.and_eq_true, ih, List.length_cons, List.length_cons,
        Nat.add_right_cancel_iff]
      constructor
      · rintro ⟨hsame, hlength, hitems⟩
        refine ⟨hlength, ?_⟩
        intro i a' ha'
        cases i with
        | zero =>
          cases ha'
          exact ⟨b, rfl, hsame⟩
        | succ i => exact hitems i a' ha'
      · rintro ⟨hlength, hitems⟩
        refine ⟨?_, hlength, fun i => hitems (i + 1)⟩
        obtain ⟨b', hb', hsame⟩ := hitems 0 a rfl
        cases hb'
        exact hsame

theorem sameFields_iff {a b : Document} : sameFields a b = true ↔
    ∀ entry ∈ a, ∃ v, Document.get b entry.1 = some v ∧ entry.2.same v = true := by
  induction a with
  | nil => simp [sameFields]
  | cons entry rest ih =>
    obtain ⟨key, v⟩ := entry
    rw [sameFields, Bool.and_eq_true, ih, List.forall_mem_cons]
    refine and_congr ?_ Iff.rfl
    cases Document.get b key <;> simp

theorem exists_of_rel {α : Type} {r : α → α → Prop} {x y : Option α} {a : α}
    (h : Option.Rel r x y) (hx : x = some a) : ∃ b, y = some b ∧ r a b := by
  subst hx
  cases h with
  | some h => exact ⟨_, rfl, h⟩

/-- What equals a value equals it with its keys in any other order. A value with a double that is
not a number does not even equal itself. -/
theorem Reordered.same {u v w : Value} (h : Reordered v w) (huv : u.same v = true) :
    u.same w = true := by
  cases h with
  | refl => exact huv
  | @array as bs hlength h =>
    cases hu : u with
    | array items =>
      rw [hu, Value.same, sameItems_iff] at huv
      rw [Value.same, sameItems_iff]
      refine ⟨huv.1.trans hlength, ?_⟩
      intro i item hitem
      obtain ⟨a, ha, hsame⟩ := huv.2 i item hitem
      obtain ⟨b, hb, hab⟩ := exists_of_rel (h i) ha
      have hsmaller := List.sizeOf_lt_of_mem (List.mem_of_getElem? hitem)
      exact ⟨b, hb, hab.same hsame⟩
    | _ => rw [hu] at huv; cases huv
  | @document a b hkeys h =>
    cases hu : u with
    | document fields =>
      have hlength : a.length = b.length := by simpa using hkeys.length_eq
      rw [hu, Value.same, Bool.and_eq_true, sameFields_iff, hlength] at huv
      rw [Value.same, Bool.and_eq_true, sameFields_iff]
      refine ⟨huv.1, ?_⟩
      intro entry hentry
      obtain ⟨v, hv, hsame⟩ := huv.2 entry hentry
      obtain ⟨w, hw, hvw⟩ := exists_of_rel (h entry.1) hv
      have hsmaller := List.sizeOf_lt_of_mem hentry
      exact ⟨w, hw, hvw.same hsame⟩
    | _ => rw [hu] at huv; cases huv
termination_by sizeOf u
decreasing_by
  · rw [hu, array.sizeOf_spec]
    omega
  · obtain ⟨key, value⟩ := entry
    rw [Prod.mk.sizeOf_spec] at hsmaller
    rw [hu, document.sizeOf_spec]
    dsimp only
    omega

theorem putItem_comm (items : List Value) {i j : Nat} (h : i ≠ j) (u w : Value) :
    putItem (putItem items i u) j w = putItem (putItem items j w) i u := by
  refine List.ext_getElem? fun k => ?_
  simp only [getElem?_putItem, length_putItem]
  by_cases hki : k = i
  · have hkj : k ≠ j := fun e => h (hki.symm.trans e)
    rw [if_neg hkj, if_neg (by omega), if_pos hki, if_pos hki]
  · by_cases hkj : k = j
    · rw [if_pos hkj, if_neg hki, if_neg (by omega), if_pos hkj]
    · rw [if_neg hkj, if_neg hki, if_neg hki, if_neg hkj]
      by_cases hlen : items.length ≤ k
      · by_cases hi : k < i
        · by_cases hj : k < j
          · rw [if_neg (by omega), if_pos ⟨hi, hlen⟩, if_neg (by omega), if_pos ⟨hj, hlen⟩]
          · rw [if_neg (by omega), if_pos ⟨hi, hlen⟩, if_pos (by omega)]
        · by_cases hj : k < j
          · rw [if_pos (by omega), if_neg (by omega), if_pos ⟨hj, hlen⟩]
          · rw [if_neg (by omega), if_neg (by omega), if_neg (by omega), if_neg (by omega)]
      · rw [if_neg (by omega), if_neg (by omega), if_neg (by omega), if_neg (by omega)]

section Child

variable {v : Value} {s t : String}

/-- Below another segment there is what was there, except that an array may have grown. -/
theorem child_withChild_of_apart (h : v.Admits s) (hst : Apart s t) (u : Value) :
    child (v.withChild s u) t = child v t ∨
      child v t = none ∧ child (v.withChild s u) t = some null := by
  by_cases hpads : v.PadsAt s t
  · exact .inr (child_withChild_of_padsAt hpads u)
  · exact .inl (child_withChild_of_ne h hst.1 (fun _ _ => hst.2) hpads u)

theorem slot_withChild_of_apart (h : v.Admits s) (hst : Apart s t) (u : Value) :
    (v.withChild s u).slot t = v.slot t := by
  rcases child_withChild_of_apart h hst u with hsame | ⟨hnone, hnull⟩
  · rw [slot, slot, hsame]
  · rw [slot, slot, hnone, hnull]
    rfl

theorem withChild_comm (hs : v.Admits s) (ht : v.Admits t) (hst : Apart s t) (u w : Value) :
    Reordered ((v.withChild s u).withChild t w) ((v.withChild t w).withChild s u) := by
  cases v with
  | document fields =>
    refine .document (Document.keys_insert_comm fields s t u w) fun key => ?_
    have hget : Document.get (Document.insert (Document.insert fields s u) t w) key =
        Document.get (Document.insert (Document.insert fields t w) s u) key := by
      by_cases hkt : key = t
      · subst hkt
        rw [Document.get_insert_self, Document.get_insert_of_ne _ _ hst.1.symm,
          Document.get_insert_self]
      · by_cases hks : key = s
        · subst hks
          rw [Document.get_insert_of_ne _ _ hkt, Document.get_insert_self,
            Document.get_insert_self]
        · rw [Document.get_insert_of_ne _ _ hkt, Document.get_insert_of_ne _ _ hks,
            Document.get_insert_of_ne _ _ hks, Document.get_insert_of_ne _ _ hkt]
    rw [hget]
    exact Reordered.option _
  | array items =>
    obtain ⟨i, hi, -⟩ := hs
    obtain ⟨j, hj, -⟩ := ht
    have hij : i ≠ j := fun e => hst.2 i hi (e ▸ hj)
    simp only [withChild, hi, hj, Option.elim_some, putItem_comm items hij]
    exact .refl _
  | _ => exact hs.elim

theorem Reordered.withChild {u w : Value} (h : Reordered u w) (v : Value) (s : String) :
    Reordered (v.withChild s u) (v.withChild s w) := by
  cases v with
  | document fields =>
    refine .document (Document.keys_insert_perm fields s u w) fun key => ?_
    by_cases hkey : key = s
    · rw [hkey, Document.get_insert_self, Document.get_insert_self]
      exact .some h
    · rw [Document.get_insert_of_ne _ _ hkey, Document.get_insert_of_ne _ _ hkey]
      exact Reordered.option _
  | array items =>
    cases hi : FieldPath.index? s with
    | none =>
      simp only [Value.withChild, hi]
      exact .refl _
    | some i =>
      simp only [Value.withChild, hi, Option.elim_some]
      refine .array (by rw [length_putItem, length_putItem]) fun k => ?_
      rw [getElem?_putItem, getElem?_putItem]
      by_cases hk : k = i
      · rw [if_pos hk, if_pos hk]
        exact .some h
      · rw [if_neg hk, if_neg hk]
        exact Reordered.option _
  | _ => exact .refl _

end Child

section Write

variable {p q : FieldPath} {a b v : Value} {ss ts : List String}

theorem parts_of_diverge (h : Diverge ss ts) (v : Value) : v.Parts ss ts := by
  induction ss generalizing ts v with
  | nil => exact h.elim
  | cons s ss ih =>
    cases ts with
    | nil => exact h.elim
    | cons t ts =>
      rcases h with hst | ⟨rfl, h⟩
      · exact ⟨[], s, t, ⟨ss, rfl⟩, ⟨ts, rfl⟩, hst.1, fun _ _ => hst.2⟩
      · obtain ⟨shared, s', t', hss, hts, hne, hapart⟩ := ih h ((v.child s).getD null)
        refine ⟨s :: shared, s', t', List.cons_prefix_cons.mpr ⟨rfl, hss⟩,
          List.cons_prefix_cons.mpr ⟨rfl, hts⟩, hne, fun items hitems => hapart items ?_⟩
        obtain ⟨next, hnext, hitems⟩ := Option.bind_eq_some_iff.mp hitems
        rw [hnext]
        exact hitems

/-- What is read at a path is still there after a write at one that diverges from it. -/
theorem getAt_setAt_of_diverge {w : Value} (h : Diverge ss ts)
    (hset : (setAt p a ss v).1 = none) (hget : getAt v ts = some w) :
    getAt (setAt p a ss v).2 ts = some w := by
  have hpads : ¬ v.Pads ss ts := by
    intro hpads
    rw [(getAt_setAt_of_pads hset hpads).1] at hget
    cases hget
  exact (getAt_setAt_of_parts hset (parts_of_diverge h v) hpads).trans hget

/-- Two writes at diverging paths that are both possible are possible in either order. The induction
is on the segments they share: at each, the first write has opened the slot that the second goes
through. -/
theorem setAt_comm (h : Diverge ss ts) (hp : (setAt p a ss v).1 = none)
    (hq : (setAt q b ts v).1 = none) :
    Reordered (setAt q b ts (setAt p a ss v).2).2 (setAt p a ss (setAt q b ts v).2).2 := by
  induction ss generalizing ts v with
  | nil => exact h.elim
  | cons s ss ih =>
    cases ts with
    | nil => exact h.elim
    | cons t ts =>
      have hs := admits_of_setAt hp
      have ht := admits_of_setAt hq
      rw [setAt_cons hs] at hp ⊢
      rw [setAt_cons ht] at hq ⊢
      dsimp only at hp hq ⊢
      rw [setAt_cons (ht.withChild s _), setAt_cons (hs.withChild t _)]
      rcases h with hst | ⟨rfl, h⟩
      · rw [slot_withChild_of_apart hs hst, slot_withChild_of_apart ht hst.symm]
        exact withChild_comm hs ht hst _ _
      · cases ss with
        | nil => exact h.elim
        | cons s' ss =>
          cases ts with
          | nil => exact h.elim
          | cons t' ts =>
            rw [slot_withChild_self hs, slot_withChild_self hs, withChild_withChild_self,
              withChild_withChild_self, opened_setAt hp, opened_setAt hq]
            exact (ih h hp hq).withChild v s

end Write

end Value

end DocumentStore
