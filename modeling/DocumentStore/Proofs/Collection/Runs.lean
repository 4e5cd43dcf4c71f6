import DocumentStore.Proofs.Collection.Identity
import Mathlib.Data.List.Infix

/-! Runs of calls on a collection, with any documents, queries and updates. An insertion asks for an
identifier that no document has, and no field that is set is one. What an update takes out is not
compared with the identifier, so that documents keep identifiers of their own as long as no update
names it there. -/

namespace DocumentStore

namespace Collection

/-- A call that may change what is stored. The first identifier is the one that a document without
its own gets. -/
inductive Call where
  | insert (fresh : ObjectId) (d : Document)
  | update (query update : Document)
  | delete (query : Document)
  | deleteMany (query : Document)

/-- The collection after a call, which is as it was if the call is refused. -/
def left {α ε : Type} (c : Collection) : Except ε (α × Collection) → Collection
  | .ok (_, after) => after
  | .error _ => c

def perform (c : Collection) : Call → Collection
  | .insert fresh d => c.left (c.insert fresh d)
  | .update query update => c.left (c.findOneAndUpdate query update)
  | .delete query => c.left (c.findOneAndDelete query)
  | .deleteMany query => c.left (c.deleteMany query)

def run (c : Collection) (calls : List Call) : Collection :=
  calls.foldl perform c

theorem run_concat (c : Collection) (calls : List Call) (call : Call) :
    c.run (calls ++ [call]) = (c.run calls).perform call := by
  rw [run, List.foldl_append]
  rfl

/-- Every document has an identifier, and no two have the same. -/
def IsKeyed (c : Collection) : Prop :=
  ∃ ids, c.HasIds ids ∧ ids.Nodup

/-- An update that finds a document and takes its identifier out. -/
def Call.Unkeys (c : Collection) : Call → Prop
  | .update query u =>
    u.takesId = true ∧ ∃ image after, c.findOneAndUpdate query u = .ok (some image, after)
  | _ => False

section Cases

variable {c : Collection}

theorem insert_cases (c : Collection) (fresh : ObjectId) (d : Document) :
    c.left (c.insert fresh d) = c ∨ ∃ id, c.holdsId id = false ∧
      (d.withId fresh).id? = .ok id ∧
      c.left (c.insert fresh d) = { c with documents := c.documents ++ [d.withId fresh] } := by
  unfold insert
  dsimp only
  cases hid : (Document.get (d.withId fresh) idKey).bind Value.asObjectId? with
  | none => exact .inl rfl
  | some id =>
    cases hheld : c.holdsId id with
    | true => exact .inl (by simp [hheld, left])
    | false => exact .inr ⟨id, hheld, by rw [Document.id?, hid], by simp [hheld, left]⟩

theorem findOneAndUpdate_eq_ok_some {query update image : Document} {after : Collection}
    (h : c.findOneAndUpdate query update = .ok (some image, after)) :
    ∃ before found rest, c.documents = before ++ found :: rest ∧
      Document.update found update = .ok image ∧
      after = { c with documents := before ++ image :: rest } := by
  obtain ⟨split, hs, h⟩ := Traversal.bind_eq_ok_iff.mp h
  cases split with
  | none => cases h
  | some parts =>
    obtain ⟨before, found, rest⟩ := parts
    obtain ⟨image', hu, h⟩ := Traversal.bind_eq_ok_iff.mp h
    cases h
    exact ⟨before, found, rest, (splitFirst_eq_some_iff.mp hs).1, hu, rfl⟩

theorem findOneAndUpdate_eq_ok_none {query update : Document} {after : Collection}
    (h : c.findOneAndUpdate query update = .ok (none, after)) : after = c := by
  obtain ⟨split, -, h⟩ := Traversal.bind_eq_ok_iff.mp h
  cases split with
  | none =>
    cases h
    rfl
  | some parts =>
    obtain ⟨image, -, h⟩ := Traversal.bind_eq_ok_iff.mp h
    cases h

theorem sublist_findOneAndDelete (c : Collection) (query : Document) :
    (c.left (c.findOneAndDelete query)).documents.Sublist c.documents := by
  cases h : c.findOneAndDelete query with
  | error fault => exact .refl _
  | ok answer =>
    obtain ⟨split, hs, h⟩ := Traversal.bind_eq_ok_iff.mp h
    cases split with
    | none =>
      cases h
      exact .refl _
    | some parts =>
      obtain ⟨before, found, rest⟩ := parts
      cases h
      change (before ++ rest).Sublist c.documents
      rw [(splitFirst_eq_some_iff.mp hs).1]
      exact (List.sublist_cons_self found rest).append_left before

theorem sublist_rest {query : Document} {ds kept : List Document} (h : rest query ds = .ok kept) :
    kept.Sublist ds := by
  induction ds generalizing kept with
  | nil =>
    cases h
    exact .refl _
  | cons d ds ih =>
    obtain ⟨holds, -, h⟩ := Traversal.bind_eq_ok_iff.mp h
    obtain ⟨kept', hkept, h⟩ := Traversal.bind_eq_ok_iff.mp h
    cases h
    cases holds with
    | true => exact (ih hkept).cons d
    | false => exact (ih hkept).cons_cons d

theorem sublist_deleteMany (c : Collection) (query : Document) :
    (c.left (c.deleteMany query)).documents.Sublist c.documents := by
  cases h : c.deleteMany query with
  | error fault => exact .refl _
  | ok answer =>
    obtain ⟨kept, hkept, h⟩ := Traversal.bind_eq_ok_iff.mp h
    cases h
    exact sublist_rest hkept

end Cases

namespace IsKeyed

variable {c : Collection}

theorem empty (name : String) : (new name).IsKeyed :=
  ⟨[], rfl, List.nodup_nil⟩

theorem of_ids {c' : Collection} (h : c.IsKeyed)
    (hids : c'.documents.map Document.id? = c.documents.map Document.id?) : c'.IsKeyed := by
  obtain ⟨ids, hc, hn⟩ := h
  exact ⟨ids, hids.trans hc, hn⟩

theorem of_sublist {c' : Collection} (h : c.IsKeyed)
    (hsub : c'.documents.Sublist c.documents) : c'.IsKeyed := by
  obtain ⟨ids, hids, hn⟩ := h
  have hmap := hsub.map Document.id?
  rw [hids, List.sublist_map_iff] at hmap
  obtain ⟨ids', hids', he⟩ := hmap
  exact ⟨ids', he, hn.sublist hids'⟩

theorem insert (h : c.IsKeyed) (fresh : ObjectId) (d : Document) :
    (c.left (c.insert fresh d)).IsKeyed := by
  rcases c.insert_cases fresh d with hsame | ⟨id, hheld, hid, hadded⟩
  · rw [hsame]
    exact h
  · obtain ⟨ids, hids, hn⟩ := h
    have hnew : id ∉ ids := hids.notMem_of_holdsId hheld
    rw [hadded]
    refine ⟨ids ++ [id], ?_, List.nodup_append.mpr ⟨hn, List.nodup_singleton id, ?_⟩⟩
    · change (c.documents ++ [d.withId fresh]).map Document.id? = _
      rw [List.map_append, hids, List.map_append, List.map_singleton, hid]
      rfl
    · intro id' hid' other hother
      rintro rfl
      exact hnew (List.mem_singleton.mp hother ▸ hid')

end IsKeyed

/-- An update leaves every identifier as it is, unless it takes one out. -/
theorem ids_update {c : Collection} {query update : Document}
    (h : ¬ (Call.update query update).Unkeys c) :
    (c.perform (.update query update)).documents.map Document.id? =
      c.documents.map Document.id? := by
  change (c.left (c.findOneAndUpdate query update)).documents.map Document.id? = _
  cases hresult : c.findOneAndUpdate query update with
  | error fault => rfl
  | ok answer =>
    obtain ⟨image?, after⟩ := answer
    cases image? with
    | none =>
      obtain rfl := findOneAndUpdate_eq_ok_none hresult
      rfl
    | some image =>
      have hspares : update.takesId = false := by
        rw [← Bool.not_eq_true]
        exact fun htakes => h ⟨htakes, image, after, hresult⟩
      obtain ⟨before, found, rest, hds, hu, rfl⟩ := findOneAndUpdate_eq_ok_some hresult
      have hid : image.id? = found.id? := by
        rw [Document.id?_update hu, hspares]
        rfl
      change (before ++ image :: rest).map Document.id? = _
      rw [hds, List.map_append, List.map_append, List.map_cons, List.map_cons, hid]

theorem IsKeyed.perform {c : Collection} (h : c.IsKeyed) {call : Call} (hcall : ¬ call.Unkeys c) :
    (c.perform call).IsKeyed := by
  cases call with
  | insert fresh d => exact h.insert fresh d
  | update query update => exact h.of_ids (ids_update hcall)
  | delete query => exact h.of_sublist (c.sublist_findOneAndDelete query)
  | deleteMany query => exact h.of_sublist (c.sublist_deleteMany query)

/-- The document whose identifier was taken out is stored without one. -/
theorem Call.Unkeys.not_isKeyed {c : Collection} {call : Call} (h : call.Unkeys c) :
    ¬ (c.perform call).IsKeyed := by
  cases call with
  | update query update =>
    obtain ⟨htakes, image, after, hresult⟩ := h
    obtain ⟨before, found, rest, -, hu, rfl⟩ := findOneAndUpdate_eq_ok_some hresult
    have hlost : image.id? = .error .identifierKind := by
      rw [Document.id?_update hu, htakes]
      rfl
    rintro ⟨ids, hids, -⟩
    have hafter : c.perform (.update query update) =
        { c with documents := before ++ image :: rest } := by
      rw [Collection.perform, hresult]
      rfl
    rw [hafter] at hids
    obtain ⟨id, -, hid⟩ := hids.exists_id (d := image) (by simp)
    rw [hlost] at hid
    cases hid
  | _ => exact h.elim

/-- What a run is to keep: after each of its calls every document has an identifier of its own, and
no update changes one. -/
structure KeepsKeys (c : Collection) (calls : List Call) : Prop where
  keyed : ∀ before, before <+: calls → (c.run before).IsKeyed
  unchanged : ∀ before query update, before ++ [Call.update query update] <+: calls →
    (c.run (before ++ [.update query update])).documents.map Document.id? =
      (c.run before).documents.map Document.id?

theorem IsKeyed.run {c : Collection} (h : c.IsKeyed) {calls : List Call}
    (hcalls : ∀ before call, before ++ [call] <+: calls → ¬ call.Unkeys (c.run before)) :
    (c.run calls).IsKeyed := by
  induction calls using List.reverseRecOn with
  | nil => exact h
  | append_singleton calls call ih =>
    rw [run_concat]
    have hlast := hcalls calls call (List.prefix_refl _)
    refine IsKeyed.perform (ih fun before call' hbefore => ?_) hlast
    exact hcalls before call' (hbefore.trans (List.prefix_append _ _))

theorem keepsKeys_iff {c : Collection} (h : c.IsKeyed) (calls : List Call) :
    c.KeepsKeys calls ↔
      ∀ before call, before ++ [call] <+: calls → ¬ call.Unkeys (c.run before) := by
  constructor
  · intro hkeeps before call hbefore hunkeys
    apply hunkeys.not_isKeyed
    rw [← run_concat]
    exact hkeeps.keyed _ hbefore
  · intro hcalls
    refine ⟨fun before hbefore => ?_, fun before query update hbefore => ?_⟩
    · exact h.run fun earlier call hearlier => hcalls earlier call (hearlier.trans hbefore)
    · rw [run_concat]
      exact ids_update (hcalls before _ hbefore)

/-- Whatever calls are made on a new collection, and whether they are answered or refused, all its
documents have distinct identifiers throughout and every update leaves them as they are exactly if
no update of the run finds a document and takes out the identifier, in any spelling of its path. -/
theorem keys_of_run (name : String) (calls : List Call) :
    (new name).KeepsKeys calls ↔
      ∀ before call, before ++ [call] <+: calls → ¬ call.Unkeys ((new name).run before) :=
  keepsKeys_iff (IsKeyed.empty name) calls

/-- The update is answered with a document that has lost its identifier, which is free again. -/
theorem keys_lost_by_unset :
    let id : ObjectId := ⟨List.replicate 12 1, List.length_replicate⟩
    let photo : Document := [("_id", .objectId id), ("title", .string "photo")]
    let calls : List Call := [.insert id photo,
      .update [] [("$unset", .document [("_id", .string "")])], .insert id photo]
    ((new "things").run calls).documents.map Document.id? = [.error .identifierKind, .ok id] ∧
      ¬ (new "things").KeepsKeys calls := by
  intro id photo calls
  have hids : ((new "things").run calls).documents.map Document.id? =
      [.error .identifierKind, .ok id] := by decide +kernel
  refine ⟨hids, fun hkeeps => ?_⟩
  obtain ⟨ids, hkeyed, -⟩ := hkeeps.keyed calls (List.prefix_refl calls)
  rw [Collection.HasIds, hids] at hkeyed
  cases ids <;> simp at hkeyed

end Collection

end DocumentStore
