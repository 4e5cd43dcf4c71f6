import DocumentStore.Proofs.Entity.Amended
import DocumentStore.Proofs.Service.NestedValues
import DocumentStore.Proofs.Value.Disjoint

/-! Two writes of one record. Where every path of the one diverges from every path of the other,
both orders leave the same document but for the time of the change, with the values of both. -/

namespace DocumentStore

namespace FieldPath

theorem not_diverge_append (ss ts : List String) : ¬ Diverge ss (ss ++ ts) := by
  induction ss with
  | nil => exact id
  | cons s ss ih =>
    rintro (h | ⟨-, h⟩)
    · exact h.1 rfl
    · exact ih h

end FieldPath

namespace Model

theorem write_eq_ok {β δ : Type} (m : Model β δ) {c c' : Collection} {operation : String}
    {id : ObjectId} {update : Document} {e : Entity β}
    (h : m.write c operation id update = (.ok e, c')) :
    ∃ before d after d',
      Collection.splitFirst (Query.byId id) c.documents = .ok (some (before, d, after)) ∧
      Document.update d update = .ok d' ∧ c' = { c with documents := before ++ d' :: after } := by
  cases hs : Collection.splitFirst (Query.byId id) c.documents with
  | error fault => simp [write, Collection.findOneAndUpdate, hs, bind, Except.bind] at h
  | ok split =>
    cases split with
    | none =>
      simp [write, Collection.findOneAndUpdate, hs, bind, Except.bind, pure, Except.pure] at h
    | some parts =>
      obtain ⟨before, d, after⟩ := parts
      cases hu : Document.update d update with
      | error fault => simp [write, Collection.findOneAndUpdate, hs, hu, bind, Except.bind] at h
      | ok d' =>
        rw [m.write_of_split hs hu] at h
        exact ⟨before, d, after, d', rfl, hu, (Prod.mk.inj h).2.symm⟩

end Model

namespace Record

/-- A write of one record: a change of its fields, or of one value inside it. -/
inductive Write where
  | change (q : RecordChange)
  | value (path : FieldPath) (v : Value)

namespace Write

def serve (c : Collection) (now : Int64) (id : ObjectId) :
    Write → Except ServiceFault (List Record) × Collection
  | change q => Model.single (model.update c now id q)
  | value path v => updateNested c now [id] path v

/-- The values that are written, with their paths. -/
def entries : Write → List (FieldPath × Value)
  | change q => (model.writeChange q).map (fun entry => (.ofString entry.1, entry.2))
  | value path v => [(path, v)]

/-- What is written of the document, beside the time. -/
def apply (d : Document) : Write → Document
  | change q => Document.insertAll d (model.writeChange q)
  | value path v => (Document.setPath d path v).2

/-- What becomes of one field. -/
def effect (key : String) (old : Option Value) : Write → Option Value
  | change q => (Document.get (model.writeChange q) key).or old
  | value path v =>
    match path.segments with
    | [] => old
    | first :: rest =>
      if key = first then some (Value.setAt path v rest (old.getD (.document []))).2 else old

/-- The fields of the document that are written. -/
def keys : Write → List String
  | change q => (model.writeChange q).map Prod.fst
  | value path _ => path.segments.head?.toList

/-- A path inside the document that names neither the identifier nor the time. -/
def Legal : Write → Prop
  | change _ => True
  | value path _ => ∃ key rest, path.segments = key :: rest ∧ key ≠ idKey ∧ key ≠ updatedAtKey

def Applies (d : Document) : Write → Prop
  | change _ => True
  | value path v => (Document.setPath d path v).1 = none

instance (d : Document) : (w : Write) → Decidable (w.Applies d)
  | change _ => .isTrue trivial
  | value path v => inferInstanceAs (Decidable ((Document.setPath d path v).1 = none))

end Write

namespace Write

theorem get_apply (d : Document) (w : Write) (key : String) :
    Document.get (w.apply d) key = w.effect key (Document.get d key) := by
  cases w with
  | change q => exact Document.get_insertAll (writesFields.nodup q) d key
  | value path v =>
    rw [apply, effect]
    cases hpath : path.segments with
    | nil => simp [Document.setPath, hpath]
    | cons first rest =>
      rw [Document.setPath_cons hpath]
      by_cases hkey : key = first
      · simp [hkey, Document.get_insert_self]
      · simp [hkey, Document.get_insert_of_ne]

theorem effect_of_notMem {w : Write} {key : String} (h : key ∉ w.keys) (old : Option Value) :
    w.effect key old = old := by
  cases w with
  | change q =>
    rw [effect, Document.get_eq_none_of_notMem h]
    rfl
  | value path v =>
    rw [effect]
    cases hpath : path.segments with
    | nil => rfl
    | cons first rest =>
      have hne : key ≠ first := by simpa [keys, hpath] using h
      simp [hne]

theorem count_apply (d : Document) (w : Write) (key : String) :
    ((w.apply d).map Prod.fst).count key = if key ∈ w.keys then
      max 1 ((d.map Prod.fst).count key) else (d.map Prod.fst).count key := by
  cases w with
  | change q => exact Document.count_keys_insertAll d (model.writeChange q) key
  | value path v =>
    rw [apply, keys]
    cases hpath : path.segments with
    | nil => simp [Document.setPath, hpath]
    | cons first rest =>
      rw [Document.setPath_cons hpath, Document.count_keys_insert]
      simp

/-- Every path of one write diverges from every path of another. -/
def Disjoint (w w' : Write) : Prop :=
  ∀ e ∈ w.entries, ∀ e' ∈ w'.entries, FieldPath.Diverge e.1.segments e'.1.segments

theorem Disjoint.symm {w w' : Write} (h : Disjoint w w') : Disjoint w' w :=
  fun e he e' he' => (h e' he' e he).symm

/-- A field is written by a change as a whole. -/
theorem mem_entries_of_mem_keys {q : RecordChange} {key : String} (h : key ∈ (change q).keys) :
    ∃ e ∈ (change q).entries, e.1.segments = [key] := by
  obtain ⟨entry, hentry, rfl⟩ := List.mem_map.mp h
  exact ⟨_, List.mem_map.mpr ⟨entry, hentry, rfl⟩, writesFields.split _ _ h⟩

theorem segments_of_mem_keys {path : FieldPath} {v : Value} {key : String}
    (h : key ∈ (value path v).keys) : ∃ rest, path.segments = key :: rest := by
  rw [keys] at h
  cases hpath : path.segments with
  | nil => simp [hpath] at h
  | cons first rest =>
    obtain rfl : key = first := by simpa [hpath] using h
    exact ⟨rest, rfl⟩

theorem effect_value {path : FieldPath} {key : String} {rest : List String}
    (hpath : path.segments = key :: rest) (v : Value) (old : Option Value) :
    (value path v).effect key old =
      some (Value.setAt path v rest (old.getD (.document []))).2 := by
  simp [effect, hpath]

theorem notMem_keys_of_diverge {q : RecordChange} {key : String} {rest : List String}
    (h : ∀ e ∈ (change q).entries, FieldPath.Diverge e.1.segments (key :: rest)) :
    key ∉ (change q).keys := by
  intro hkey
  obtain ⟨e, he, hsegments⟩ := mem_entries_of_mem_keys hkey
  have hdiverge := h e he
  rw [hsegments] at hdiverge
  exact FieldPath.not_diverge_append [key] rest hdiverge

theorem diverge_rest {key : String} {ss ts : List String}
    (h : FieldPath.Diverge (key :: ss) (key :: ts)) : FieldPath.Diverge ss ts := by
  rcases h with hapart | ⟨-, h⟩
  · exact absurd rfl hapart.1
  · exact h

theorem Disjoint.notMem_keys {q : RecordChange} {w : Write} (h : Disjoint (change q) w)
    {key : String} (hkey : key ∈ w.keys) : key ∉ (change q).keys := by
  cases w with
  | change q' =>
    obtain ⟨e', he', hsegments⟩ := mem_entries_of_mem_keys hkey
    exact notMem_keys_of_diverge fun e he => hsegments ▸ h e he e' he'
  | value path v =>
    obtain ⟨rest, hpath⟩ := segments_of_mem_keys hkey
    exact notMem_keys_of_diverge fun e he => hpath ▸ h e he (path, v) List.mem_cons_self

section Field

variable {w w' : Write} {d : Document}

/-- What two writes do to one field, in either order. A change writes a field as a whole, so that
both write it only where both write a value below it. -/
theorem effect_comm (h : Disjoint w w') (hw : w.Applies d) (hw' : w'.Applies d) (key : String) :
    Option.Rel Value.Reordered (w'.effect key (w.effect key (Document.get d key)))
      (w.effect key (w'.effect key (Document.get d key))) := by
  by_cases hkey : key ∈ w.keys
  · by_cases hkey' : key ∈ w'.keys
    · cases w with
      | change q => exact absurd hkey (h.notMem_keys hkey')
      | value path v =>
        cases w' with
        | change q => exact absurd hkey' (h.symm.notMem_keys hkey)
        | value path' v' =>
          obtain ⟨rest, hpath⟩ := segments_of_mem_keys hkey
          obtain ⟨rest', hpath'⟩ := segments_of_mem_keys hkey'
          have hdiverge := h _ List.mem_cons_self _ List.mem_cons_self
          simp only [hpath, hpath'] at hdiverge
          rw [Applies, Document.setPath_cons hpath] at hw
          rw [Applies, Document.setPath_cons hpath'] at hw'
          rw [effect_value hpath, effect_value hpath', effect_value hpath, effect_value hpath']
          exact .some (Value.setAt_comm (diverge_rest hdiverge) hw hw')
    · rw [effect_of_notMem hkey', effect_of_notMem hkey']
      exact Value.Reordered.option _
  · rw [effect_of_notMem hkey, effect_of_notMem hkey]
    exact Value.Reordered.option _

theorem getPath_apply_self (hw : w.Applies d) {e : FieldPath × Value} (he : e ∈ w.entries) :
    (w.apply d).getPath e.1 = some e.2 := by
  cases w with
  | change q =>
    obtain ⟨entry, hentry, rfl⟩ := List.mem_map.mp he
    have hsegments := writesFields.split _ _ (List.mem_map_of_mem hentry)
    have hget := Document.get_of_mem (writesFields.nodup q) hentry
    rw [Document.getPath_cons hsegments, get_apply, effect, hget]
    rfl
  | value path v =>
    obtain rfl := List.mem_singleton.mp he
    exact Document.getPath_setPath hw

theorem getPath_apply_of_diverge (hw : w.Applies d) {path : FieldPath} {v : Value}
    (h : ∀ e ∈ w.entries, FieldPath.Diverge path.segments e.1.segments)
    (hget : d.getPath path = some v) : (w.apply d).getPath path = some v := by
  cases hpath : path.segments with
  | nil => simp [Document.getPath, hpath] at hget
  | cons key rest =>
    rw [Document.getPath_cons hpath] at hget ⊢
    rw [get_apply]
    by_cases hkey : key ∈ w.keys
    · cases w with
      | change q =>
        have hfree := notMem_keys_of_diverge fun e he => hpath ▸ (h e he).symm
        exact absurd hkey hfree
      | value path' v' =>
        obtain ⟨rest', hpath'⟩ := segments_of_mem_keys hkey
        obtain ⟨next, hnext, hget⟩ := Option.bind_eq_some_iff.mp hget
        have hdiverge := h _ List.mem_cons_self
        simp only [hpath, hpath'] at hdiverge
        rw [Applies, Document.setPath_cons hpath', hnext] at hw
        rw [effect_value hpath', hnext]
        exact Value.getAt_setAt_of_diverge (diverge_rest hdiverge).symm hw hget
    · rw [effect_of_notMem hkey, hget]

end Field

/-- A document after a write. -/
def stamped (w : Write) (now : Int64) (d : Document) : Document :=
  Document.insert (w.apply d) updatedAtKey (.dateTime now)

section Stamped

variable {w w' : Write}

theorem Legal.notMem_keys (hw : w.Legal) : idKey ∉ w.keys ∧ updatedAtKey ∉ w.keys := by
  cases w with
  | change q =>
    exact ⟨fun h => writesFields.spare q idKey h (by decide),
      fun h => writesFields.spare q updatedAtKey h (by decide)⟩
  | value path v =>
    obtain ⟨key, rest, hpath, hid, hdate⟩ := hw
    simp [keys, hpath, Ne.symm hid, Ne.symm hdate]

theorem head_mem_keys {e : FieldPath × Value} (he : e ∈ w.entries) {key : String}
    (hkey : e.1.segments.head? = some key) : key ∈ w.keys := by
  cases w with
  | change q =>
    obtain ⟨entry, hentry, rfl⟩ := List.mem_map.mp he
    have hmem := List.mem_map_of_mem (f := Prod.fst) hentry
    simp only [FieldPath.segments_ofString, writesFields.split _ _ hmem, List.head?_cons,
      Option.some.injEq] at hkey
    exact hkey ▸ hmem
  | value path v =>
    obtain rfl := List.mem_singleton.mp he
    simp [keys, hkey]

theorem stamped_comm {d : Document} (h : Disjoint w w') (hw : w.Applies d) (hw' : w'.Applies d)
    (t₁ t₂ t₃ t₄ : Int64) :
    Value.Reordered (.document (Document.erase (w'.stamped t₂ (w.stamped t₁ d)) updatedAtKey))
      (.document (Document.erase (w.stamped t₄ (w'.stamped t₃ d)) updatedAtKey)) := by
  refine .document (List.perm_iff_count.mpr fun key => ?_) fun key => ?_
  · simp only [stamped, Document.count_keys_erase, Document.count_keys_insert, count_apply]
    by_cases hkey : key = updatedAtKey
    · rw [if_pos hkey, if_pos hkey]
    · simp only [if_neg hkey]
      by_cases hmem : key ∈ w.keys
      · simp only [if_pos hmem]
        split <;> rfl
      · simp only [if_neg hmem]
  · by_cases hkey : key = updatedAtKey
    · rw [hkey, Document.get_erase_self, Document.get_erase_self]
      exact .none
    · simp only [stamped, Document.get_erase_of_ne _ hkey, Document.get_insert_of_ne _ _ hkey,
        get_apply]
      exact effect_comm h hw hw' key

/-- After both writes every value of either is at its path. -/
theorem getPath_of_both {d : Document} (h : Disjoint w w') (hw : w.Legal) (hw' : w'.Legal)
    (ha : w.Applies d) {t₁ t₂ : Int64} (ha' : w'.Applies (w.stamped t₁ d)) :
    ∀ e ∈ w.entries ++ w'.entries,
      (w'.stamped t₂ (w.stamped t₁ d)).getPath e.1 = some e.2 := by
  intro e he
  rcases List.mem_append.mp he with he | he
  · have hdate : e.1.segments.head? ≠ some updatedAtKey :=
      fun hhead => hw.notMem_keys.2 (head_mem_keys he hhead)
    have hfirst : (w.stamped t₁ d).getPath e.1 = some e.2 :=
      (Document.getPath_insert_of_ne _ _ hdate).trans (getPath_apply_self ha he)
    exact (Document.getPath_insert_of_ne _ _ hdate).trans
      (getPath_apply_of_diverge ha' (fun e' he' => h e he e' he') hfirst)
  · have hdate : e.1.segments.head? ≠ some updatedAtKey :=
      fun hhead => hw'.notMem_keys.2 (head_mem_keys he hhead)
    exact (Document.getPath_insert_of_ne _ _ hdate).trans (getPath_apply_self ha' he)

theorem get_idKey_stamped (hw : w.Legal) (now : Int64) (d : Document) :
    Document.get (w.stamped now d) idKey = Document.get d idKey := by
  rw [stamped, Document.get_insert_of_ne _ _ (by decide), get_apply,
    effect_of_notMem hw.notMem_keys.1]

theorem splitFirst_stamped (hw : w.Legal) {id : ObjectId} {ds before after : List Document}
    {d : Document} (now : Int64)
    (hs : Collection.splitFirst (Query.byId id) ds = .ok (some (before, d, after))) :
    Collection.splitFirst (Query.byId id) (before ++ w.stamped now d :: after) =
      .ok (some (before, w.stamped now d, after)) := by
  obtain ⟨-, hbefore, hfound⟩ := Collection.splitFirst_eq_some_iff.mp hs
  have hid := get_idKey_stamped hw now d
  exact Collection.splitFirst_eq_some_iff.mpr
    ⟨rfl, hbefore, (Query.matches_byId_congr hid id).trans hfound⟩

end Stamped

/-- A value that is written has a path inside the document. -/
theorem exists_segments_of_serve {path : FieldPath} {v : Value} {c c' : Collection} {now : Int64}
    {id : ObjectId} {records : List Record}
    (h : (value path v).serve c now id = (.ok records, c')) :
    ∃ key rest, path.segments = key :: rest ∧ key ≠ idKey := by
  rw [serve, updateNested] at h
  cases hwritable : checkWritable path with
  | error fault =>
    rw [hwritable] at h
    cases h
  | ok _ =>
    have hwithin := isWithinIdentifier_of_checkWritable hwritable
    cases hpath : path.segments with
    | nil => simp [checkWritable, FieldPath.isEmpty, hpath] at hwritable
    | cons key rest =>
      refine ⟨key, rest, rfl, ?_⟩
      rintro rfl
      simp [FieldPath.isWithinIdentifier, hpath] at hwithin

/-- A write that is answered has found a document with the identifier, and has changed this one. -/
theorem stamped_of_serve {w : Write} {c c' : Collection} {now : Int64} {id : ObjectId}
    {records : List Record}
    (hdate : ∀ path v, w = value path v → path.segments.head? ≠ some updatedAtKey)
    (h : w.serve c now id = (.ok records, c')) :
    w.Legal ∧ ∃ before d after,
      Collection.splitFirst (Query.byId id) c.documents = .ok (some (before, d, after)) ∧
      w.Applies d ∧ c' = { c with documents := before ++ w.stamped now d :: after } := by
  cases w with
  | change q =>
    obtain ⟨hanswer, hc'⟩ := Prod.mk.inj h
    cases hr : (model.update c now id q).1 with
    | error fault => rw [hr] at hanswer; cases hanswer
    | ok r =>
      obtain ⟨before, d, after, d', hs, hu, hleft⟩ := model.write_eq_ok (Prod.ext hr hc')
      rw [writesFields.update_changeUpdate] at hu
      obtain rfl := Except.ok.inj hu
      exact ⟨trivial, before, d, after, hs, trivial, hleft⟩
  | value path v =>
    obtain ⟨key, rest, hpath, hid⟩ := exists_segments_of_serve h
    have hupdated : key ≠ updatedAtKey := by simpa [hpath] using hdate path v rfl
    refine ⟨⟨key, rest, hpath, hid, hupdated⟩, ?_⟩
    rw [serve, updateNested_eq hpath hid] at h
    obtain ⟨first, c₁, later, hstep, hlater, -⟩ := writeEach_cons_ok h
    obtain rfl : c₁ = c' := (Prod.mk.inj hlater).2
    rcases hr : model.write c "update_nested_value" id (setUpdate now path v) with ⟨answer, c₂⟩
    obtain ⟨hanswer, rfl⟩ := Prod.mk.inj ((ofEach_eq hr).symm.trans hstep)
    cases answer with
    | error fault => cases hanswer
    | ok r =>
      obtain ⟨before, d, after, d', hs, hu, hleft⟩ := model.write_eq_ok hr
      obtain ⟨hset, rfl⟩ := (update_setUpdate_eq_ok_iff hpath hid hupdated now v d d').mp hu
      exact ⟨before, d, after, hs, hset, hleft⟩

theorem Legal.head?_ne_updatedAtKey {path : FieldPath} {v : Value} (h : (value path v).Legal) :
    path.segments.head? ≠ some updatedAtKey := by
  obtain ⟨key, rest, hpath, -, hdate⟩ := h
  simpa [hpath] using hdate

/-- A write under which sound records stay sound. -/
def KeepsSound : Write → Prop
  | change q => q.IsReadable
  | value path v => (value path v).Legal ∧ AllowsSet v path

theorem KeepsSound.legal {w : Write} (h : w.KeepsSound) : w.Legal := by
  cases w with
  | change q => trivial
  | value path v => exact h.1

section Single

variable {w w' : Write} {id : ObjectId} {d : Document} (name : String) (t t' : Int64)
  (hw : w.KeepsSound) (ha : w.Applies d) (hd : soundSchema.Holds d)

include hw ha hd

theorem holds_stamped : soundSchema.Holds (w.stamped t d) := by
  cases w with
  | change q =>
    exact (hd.insertAll fun entry hentry => (keeps.change q hw entry hentry).2).insert
      (keeps.updatedAt t)
  | value path v =>
    obtain ⟨⟨key, rest, hpath, hid, hdate⟩, hallows⟩ := hw
    exact (takes_of_allowsSet hpath hid hdate t hd hallows ha).2

variable (hid : d.id? = .ok id)

include hid

/-- A collection of one sound record answers a write that keeps it sound. -/
theorem serve_single :
    ∃ r, w.serve ⟨name, [d]⟩ t id = (.ok r, ⟨name, [w.stamped t d]⟩) := by
  have hids : Collection.HasIds ⟨name, [d]⟩ [id] := by simp [Collection.HasIds, hid]
  have hholds := holds_stamped t hw ha hd
  cases w with
  | change q =>
    obtain ⟨e, he⟩ : model.Decodes (model.changed t q d) := keeps.decodes _ hholds
    have hwrite := model.write_of_mem hids (List.nodup_singleton id) List.mem_cons_self hid "update"
      (writesFields.update_changeUpdate q t d)
    rw [Collection.rewrite_singleton hid, model.decodeStored_ok_iff.mpr he] at hwrite
    refine ⟨[e], ?_⟩
    rw [serve, Model.update, hwrite]
    rfl
  | value path v =>
    obtain ⟨⟨key, rest, hpath, hkey, hdate⟩, hallows⟩ := hw
    have htakes : ∀ d' ∈ [d], d'.hasIdIn [id] = true → Takes t path v d' := by
      intro d' hd' _
      obtain rfl := List.mem_singleton.mp hd'
      exact (takes_of_allowsSet hpath hkey hdate t hd hallows ha).1
    obtain ⟨r, hr, -⟩ :=
      updateNested_of_takes hpath hkey hdate t hids (by simp) (by simp) htakes
    rw [Collection.rewrite_singleton hid] at hr
    exact ⟨r, hr⟩

theorem serve_single_twice (hw' : w'.KeepsSound) (ha' : w'.Applies (w.stamped t d)) :
    ∃ r r', w.serve ⟨name, [d]⟩ t id = (.ok r, ⟨name, [w.stamped t d]⟩) ∧
      w'.serve ⟨name, [w.stamped t d]⟩ t' id =
        (.ok r', ⟨name, [w'.stamped t' (w.stamped t d)]⟩) := by
  obtain ⟨r, hr⟩ := serve_single name t hw ha hd hid
  obtain ⟨r', hr'⟩ := serve_single name t' hw' ha' (holds_stamped t hw ha hd)
    ((Document.id?_congr (get_idKey_stamped hw.legal t d)).trans hid)
  exact ⟨r, r', hr, hr'⟩

end Single

end Write

/-- Writes at paths that diverge commute, so that neither is lost. Where both orders are answered,
the documents that are left are equal but for the order of keys and the time of the change, at the
same place among the same others, and every value of both writes is in them. -/
theorem disjoint_writes_commute {c c₁ c₂ c₁₂ c₂₁ : Collection} {id : ObjectId} {w₁ w₂ : Write}
    {t₁ t₁₂ t₂ t₂₁ : Int64} {r₁ r₁₂ r₂ r₂₁ : List Record} (hdisjoint : w₁.Disjoint w₂)
    (hdate : ∀ path v, w₁ = .value path v ∨ w₂ = .value path v →
      path.segments.head? ≠ some updatedAtKey)
    (h₁ : w₁.serve c t₁ id = (.ok r₁, c₁)) (h₁₂ : w₂.serve c₁ t₁₂ id = (.ok r₁₂, c₁₂))
    (h₂ : w₂.serve c t₂ id = (.ok r₂, c₂)) (h₂₁ : w₁.serve c₂ t₂₁ id = (.ok r₂₁, c₂₁)) :
    ∃ before after d₁₂ d₂₁,
      c₁₂.documents = before ++ d₁₂ :: after ∧ c₂₁.documents = before ++ d₂₁ :: after ∧
      c₁₂.findOne (Query.byId id) = .ok (some d₁₂) ∧
      c₂₁.findOne (Query.byId id) = .ok (some d₂₁) ∧
      Value.Reordered (.document (Document.erase d₁₂ updatedAtKey))
        (.document (Document.erase d₂₁ updatedAtKey)) ∧
      ((Document.erase d₁₂ updatedAtKey).same (Document.erase d₁₂ updatedAtKey) = true →
        (Document.erase d₁₂ updatedAtKey).same (Document.erase d₂₁ updatedAtKey) = true) ∧
      ∀ e ∈ w₁.entries ++ w₂.entries,
        d₁₂.getPath e.1 = some e.2 ∧ d₂₁.getPath e.1 = some e.2 := by
  obtain ⟨hlegal₁, before, d, after, hs, ha₁, rfl⟩ :=
    Write.stamped_of_serve (fun path v h => hdate path v (.inl h)) h₁
  obtain ⟨hlegal₂, before', d', after', hs', ha₂, rfl⟩ :=
    Write.stamped_of_serve (fun path v h => hdate path v (.inr h)) h₂
  obtain ⟨rfl, rfl, rfl⟩ : before = before' ∧ d = d' ∧ after = after' := by
    simpa using hs.symm.trans hs'
  obtain ⟨-, before₁, d₁, after₁, hs₁, ha₁₂, rfl⟩ :=
    Write.stamped_of_serve (fun path v h => hdate path v (.inr h)) h₁₂
  obtain ⟨-, before₂, d₂, after₂, hs₂, ha₂₁, rfl⟩ :=
    Write.stamped_of_serve (fun path v h => hdate path v (.inl h)) h₂₁
  have hfound₁ := Write.splitFirst_stamped hlegal₁ t₁ hs
  have hfound₂ := Write.splitFirst_stamped hlegal₂ t₂ hs
  obtain ⟨rfl, rfl, rfl⟩ : before = before₁ ∧ w₁.stamped t₁ d = d₁ ∧ after = after₁ := by
    simpa using hfound₁.symm.trans hs₁
  obtain ⟨rfl, rfl, rfl⟩ : before = before₂ ∧ w₂.stamped t₂ d = d₂ ∧ after = after₂ := by
    simpa using hfound₂.symm.trans hs₂
  have hreordered := Write.stamped_comm hdisjoint ha₁ ha₂ t₁ t₁₂ t₂ t₂₁
  refine ⟨before, after, _, _, rfl, rfl, ?_, ?_, hreordered, hreordered.same, ?_⟩
  · rw [Collection.findOne, Write.splitFirst_stamped hlegal₂ t₁₂ hfound₁]
    rfl
  · rw [Collection.findOne, Write.splitFirst_stamped hlegal₁ t₂₁ hfound₂]
    rfl
  · intro e he
    refine ⟨Write.getPath_of_both hdisjoint hlegal₁ hlegal₂ ha₁ ha₁₂ e he, ?_⟩
    have he' : e ∈ w₂.entries ++ w₁.entries :=
      List.mem_append.mpr (List.mem_append.mp he).symm
    exact Write.getPath_of_both hdisjoint.symm hlegal₂ hlegal₁ ha₂ ha₂₁ e he'

/-- The rows of a photo are padded by the first write, whichever this is, and its title is changed
before or after a value inside it. -/
theorem disjoint_writes_commute_photos :
    let id : ObjectId := ⟨List.replicate 12 1, List.length_replicate⟩
    let photo : Document := model.newDocument id 0 (.embedded "photo" (.document []))
    let c : Collection := ⟨"records", [photo]⟩
    let size : Write := .value (.ofString "content.data.rows[0].size") (.int32 120)
    let km : Write := .value (.ofString "content.data.rows[2].km") (.int64 7)
    let title : Write := .change { title := some "Harbour" }
    (∃ d₁₂ d₂₁,
      (km.serve (size.serve c 1 id).2 2 id).2.findOne (Query.byId id) = .ok (some d₁₂) ∧
      (size.serve (km.serve c 1 id).2 2 id).2.findOne (Query.byId id) = .ok (some d₂₁) ∧
      (Document.erase d₁₂ updatedAtKey).same (Document.erase d₂₁ updatedAtKey) = true ∧
      d₁₂.getPath (.ofString "content.data.rows[0].size") = some (.int32 120) ∧
      d₂₁.getPath (.ofString "content.data.rows[2].km") = some (.int64 7)) ∧
    ∃ d₁₂ d₂₁,
      (title.serve (size.serve c 1 id).2 2 id).2.findOne (Query.byId id) = .ok (some d₁₂) ∧
      (size.serve (title.serve c 1 id).2 2 id).2.findOne (Query.byId id) = .ok (some d₂₁) ∧
      (Document.erase d₁₂ updatedAtKey).same (Document.erase d₂₁ updatedAtKey) = true ∧
      d₁₂.getPath (.ofString "content.data.rows[0].size") = some (.int32 120) ∧
      d₂₁.getPath (.ofString "title") = some (.string "Harbour") := by
  intro id photo c size km title
  have hphoto : soundSchema.Holds photo :=
    keeps.holds_newDocument (by rintro data ⟨⟩; rfl) id 0
  have hboth {w w' : Write} (hw : w.KeepsSound) (hw' : w'.KeepsSound) (hdisjoint : w.Disjoint w')
      (ha : w.Applies photo ∧ w'.Applies (w.stamped 1 photo))
      (ha' : w'.Applies photo ∧ w.Applies (w'.stamped 1 photo))
      (hsame : (Document.erase (w'.stamped 2 (w.stamped 1 photo)) updatedAtKey).same
        (Document.erase (w'.stamped 2 (w.stamped 1 photo)) updatedAtKey) = true) :
      ∃ d₁₂ d₂₁,
        (w'.serve (w.serve c 1 id).2 2 id).2.findOne (Query.byId id) = .ok (some d₁₂) ∧
        (w.serve (w'.serve c 1 id).2 2 id).2.findOne (Query.byId id) = .ok (some d₂₁) ∧
        (Document.erase d₁₂ updatedAtKey).same (Document.erase d₂₁ updatedAtKey) = true ∧
        ∀ e ∈ w.entries ++ w'.entries, d₁₂.getPath e.1 = some e.2 ∧ d₂₁.getPath e.1 = some e.2 := by
    obtain ⟨r₁, r₁₂, h₁, h₁₂⟩ :=
      Write.serve_single_twice "records" 1 2 hw ha.1 hphoto rfl hw' ha.2
    obtain ⟨r₂, r₂₁, h₂, h₂₁⟩ :=
      Write.serve_single_twice "records" 1 2 hw' ha'.1 hphoto rfl hw ha'.2
    have hdate : ∀ path v, w = .value path v ∨ w' = .value path v →
        path.segments.head? ≠ some updatedAtKey := by
      rintro path v (rfl | rfl)
      · exact hw.legal.head?_ne_updatedAtKey
      · exact hw'.legal.head?_ne_updatedAtKey
    obtain ⟨before, after, d₁₂, d₂₁, hleft, -, hfound₁₂, hfound₂₁, -, hequal, hvalues⟩ :=
      disjoint_writes_commute hdisjoint hdate h₁ h₁₂ h₂ h₂₁
    have hmem : d₁₂ ∈ before ++ d₁₂ :: after := List.mem_append_right before List.mem_cons_self
    rw [← hleft] at hmem
    obtain rfl := List.mem_singleton.mp hmem
    rw [h₁, h₁₂, h₂, h₂₁]
    exact ⟨_, d₂₁, hfound₁₂, hfound₂₁, hequal hsame, hvalues⟩
  have hsize : (FieldPath.ofString "content.data.rows[0].size").segments =
      ["content", "data", "rows", "0", "size"] := by decide +kernel
  have hkm : (FieldPath.ofString "content.data.rows[2].km").segments =
      ["content", "data", "rows", "2", "km"] := by decide +kernel
  have htitle : (FieldPath.ofString "title").segments = ["title"] := by decide +kernel
  have hsizes : size.KeepsSound := by
    refine ⟨⟨"content", _, hsize, by decide, by decide⟩, ?_⟩
    rw [AllowsSet, hsize]
    exact ⟨rfl, by decide⟩
  have hkms : km.KeepsSound := by
    refine ⟨⟨"content", _, hkm, by decide, by decide⟩, ?_⟩
    rw [AllowsSet, hkm]
    exact ⟨rfl, by decide⟩
  have htitles : title.KeepsSound := by
    rintro content ⟨⟩
  refine ⟨?_, ?_⟩
  · have hdisjoint : size.Disjoint km := by
      intro e he e' he'
      obtain rfl := List.mem_singleton.mp he
      obtain rfl := List.mem_singleton.mp he'
      have hrows : FieldPath.Apart "0" "2" :=
        ⟨by decide, fun i h h' => by cases h; exact absurd h' (by decide +kernel)⟩
      rw [hsize, hkm]
      exact .inr ⟨rfl, .inr ⟨rfl, .inr ⟨rfl, .inl hrows⟩⟩⟩
    obtain ⟨d₁₂, d₂₁, hfound₁₂, hfound₂₁, hequal, hvalues⟩ :=
      hboth hsizes hkms hdisjoint (by decide +kernel) (by decide +kernel) (by decide +kernel)
    exact ⟨d₁₂, d₂₁, hfound₁₂, hfound₂₁, hequal, (hvalues _ List.mem_cons_self).1,
      (hvalues _ (List.mem_append_right _ List.mem_cons_self)).2⟩
  · have hdisjoint : size.Disjoint title := by
      intro e he e' he'
      obtain rfl := List.mem_singleton.mp he
      obtain rfl := List.mem_singleton.mp he'
      rw [hsize, htitle]
      exact .inl ⟨by decide, fun i h => by cases h⟩
    obtain ⟨d₁₂, d₂₁, hfound₁₂, hfound₂₁, hequal, hvalues⟩ :=
      hboth hsizes htitles hdisjoint (by decide +kernel) (by decide +kernel) (by decide +kernel)
    exact ⟨d₁₂, d₂₁, hfound₁₂, hfound₂₁, hequal, (hvalues _ List.mem_cons_self).1,
      (hvalues _ (List.mem_append_right _ List.mem_cons_self)).2⟩

end Record

end DocumentStore
