import Mathlib.Data.List.Basic
import DocumentStore.Query.Reached

/-! The values that a path leads to, one step at a time. What a query collects below a document is
each of these values, and nothing else. -/

namespace DocumentStore

namespace Value

/-- A path leads from one value to another. At its end an array stands for its elements as well, and
on the way it leaves the whole rest of the path to each document in it. -/
inductive Reaches : Value → List String → Value → Prop where
  | here (v : Value) : Reaches v [] v
  | element {items : List Value} {v : Value} : v ∈ items → Reaches (array items) [] v
  | field {fields : Document} {segment : String} {rest : List String} {next v : Value} :
      Document.get fields segment = some next → Reaches next rest v →
      Reaches (document fields) (segment :: rest) v
  | index {items : List Value} {segment : String} {rest : List String} {i : Nat} {next v : Value} :
      FieldPath.index? segment = some i → items[i]? = some next → Reaches next rest v →
      Reaches (array items) (segment :: rest) v
  | through {items : List Value} {fields : Document} {segment : String} {rest : List String}
      {v : Value} : document fields ∈ items → Reaches (document fields) (segment :: rest) v →
      Reaches (array items) (segment :: rest) v

variable {v w next : Value} {segment : String} {rest : List String}

theorem mem_ends_iff : w ∈ v.ends ↔ Reaches v [] w := by
  constructor
  · intro h
    cases v with
    | array items =>
      rcases List.mem_cons.mp h with rfl | h
      · exact .here _
      · exact .element h
    | _ =>
      obtain rfl := List.mem_singleton.mp h
      exact .here _
  · intro h
    cases h with
    | here => cases v <;> exact List.mem_cons_self
    | element h => exact List.mem_cons_of_mem _ h

theorem mem_steps_document {fields : Document} :
    next ∈ (document fields).steps segment ↔ Document.get fields segment = some next :=
  Option.mem_toList

theorem mem_steps_array {items : List Value} : next ∈ (array items).steps segment ↔
    (∃ i, FieldPath.index? segment = some i ∧ items[i]? = some next) ∨
      ∃ fields, document fields ∈ items ∧ Document.get fields segment = some next := by
  rw [steps, List.mem_append, List.mem_flatMap, Option.mem_toList, Option.bind_eq_some_iff]
  refine or_congr Iff.rfl ⟨?_, ?_⟩
  · rintro ⟨item, hitem, hnext⟩
    obtain ⟨fields, hfields, hget⟩ := Option.bind_eq_some_iff.mp (Option.mem_toList.mp hnext)
    cases item <;> cases hfields
    exact ⟨_, hitem, hget⟩
  · rintro ⟨fields, hfields, hget⟩
    exact ⟨document fields, hfields, Option.mem_toList.mpr hget⟩

/-- The first segment of a path is one step. An array makes the step of the document that it leaves
the path to, so that each step takes a segment. -/
theorem reaches_cons_iff :
    Reaches v (segment :: rest) w ↔ ∃ next ∈ v.steps segment, Reaches next rest w := by
  constructor
  · intro h
    cases h with
    | field hget hrest => exact ⟨_, mem_steps_document.mpr hget, hrest⟩
    | index hindex hitem hrest => exact ⟨_, mem_steps_array.mpr (.inl ⟨_, hindex, hitem⟩), hrest⟩
    | through hmem h =>
      cases h with
      | field hget hrest => exact ⟨_, mem_steps_array.mpr (.inr ⟨_, hmem, hget⟩), hrest⟩
  · rintro ⟨next, hnext, hrest⟩
    cases v with
    | document fields => exact .field (mem_steps_document.mp hnext) hrest
    | array items =>
      rcases mem_steps_array.mp hnext with ⟨i, hindex, hitem⟩ | ⟨fields, hmem, hget⟩
      · exact .index hindex hitem hrest
      · exact .through hmem (.field hget hrest)
    | _ => cases hnext

theorem mem_reached_iff {segments : List String} :
    w ∈ reached segments v ↔ Reaches v segments w := by
  induction segments generalizing v with
  | nil => exact mem_ends_iff
  | cons segment rest ih =>
    rw [reached, List.mem_flatMap, reaches_cons_iff]
    exact exists_congr fun next => and_congr_right fun _ => ih

end Value

namespace Document

/-- What a path reaches in a document is what it leads to. An empty path reaches nothing. -/
theorem mem_reached_iff_reaches {d : Document} {path : FieldPath} {v : Value} :
    v ∈ d.reached path ↔ path.segments ≠ [] ∧ Value.Reaches (.document d) path.segments v := by
  rw [reached]
  cases path.segments with
  | nil => simp
  | cons segment rest =>
    rw [Value.mem_reached_iff]
    exact (and_iff_right (List.cons_ne_nil _ _)).symm

/-- A path into an array of documents, and the same path with the index of one of them. -/
example :
    let rows : Value := .array [.document [("title", .string "sky")],
      .document [("title", .string "sea")]]
    Document.reached [("rows", rows)] (.ofString "rows.title") = [.string "sky", .string "sea"] ∧
      Document.reached [("rows", rows)] (.ofString "rows.1.title") = [.string "sea"] :=
  ⟨rfl, rfl⟩

end Document

end DocumentStore
