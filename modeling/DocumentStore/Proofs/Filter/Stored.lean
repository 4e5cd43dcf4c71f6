import DocumentStore.Filter.Stored
import DocumentStore.Proofs.Filter.Wire

/-! Filter sets inside stored documents. JSON whose numerals are whole numbers of sixty-four bits or
doubles is read back as it was stored, and filters are written in such JSON, so that a valid set is
read back as itself. -/

namespace DocumentStore

namespace Json

/-- JSON that is the same after it was stored. -/
def IsStorable (v : Json) : Prop :=
  (Value.ofJson v).toJson? = some v

namespace IsStorable

theorem null : IsStorable null := rfl

theorem bool (b : Bool) : IsStorable (bool b) := rfl

theorem string (s : String) : IsStorable (string s) := rfl

theorem int (n : Int64) : IsStorable (int n) := by
  have hvalue : Value.ofJson (.int n) = .int64 n := by
    rw [Json.int, Value.ofJson, toInt64?_ofInt64]
  rw [IsStorable, hvalue]
  rfl

theorem float (x : Float) : IsStorable (float x) := by
  unfold Json.float
  by_cases h : x.isFinite = true
  · rw [if_pos h]
    change some (Json.float x) = _
    rw [Json.float, if_pos h]
  · rw [if_neg h]
    exact null

theorem array {items : List Json} (h : ∀ v ∈ items, v.IsStorable) : IsStorable (array items) := by
  have hitems : Value.itemsToJson? (Value.itemsOfJson items) = some items := by
    induction items with
    | nil => rfl
    | cons v vs ih =>
      have hv : (Value.ofJson v).toJson? = some v := h v (by simp)
      rw [Value.itemsOfJson, Value.itemsToJson?, hv, ih (fun u hu => h u (by simp [hu]))]
      rfl
  rw [IsStorable, Value.ofJson, Value.toJson?, hitems]
  rfl

theorem object {members : List (String × Json)} (h : ∀ member ∈ members, member.2.IsStorable) :
    IsStorable (object members) := by
  have hmembers : Value.fieldsToJson? (Value.fieldsOfJson members) = some members := by
    induction members with
    | nil => rfl
    | cons member rest ih =>
      obtain ⟨key, v⟩ := member
      have hv : (Value.ofJson v).toJson? = some v := h (key, v) (by simp)
      rw [Value.fieldsOfJson, Value.fieldsToJson?, hv, ih (fun u hu => h u (by simp [hu]))]
      rfl
  rw [IsStorable, Value.ofJson, Value.toJson?, hmembers]
  rfl

end IsStorable

end Json

open Json (IsStorable)

theorem Position.isStorable (p : Position) : p.toJson.IsStorable :=
  .array (by simp [IsStorable.float])

theorem Operation.isStorable (op : Operation) : op.toJson.IsStorable := by
  cases op with
  | contains pattern => exact .string pattern
  | equals text => exact .string text
  | compare c operand =>
    cases operand with
    | int n => exact .int n
    | float x => exact .float x
  | is flag => exact .bool flag
  | radius center kilometres => exact .object (by simp [center.isStorable, IsStorable.float])
  | area ring =>
    have hring : IsStorable (.array (ring.map Position.toJson)) :=
      .array (by simp [Position.isStorable])
    exact .object (by simpa using hring)

theorem Filter.isStorable (f : Filter) : f.toJson.IsStorable :=
  .object (by simp [f.operation.isStorable, IsStorable.string, IsStorable.bool])

theorem Concatenation.isStorable (c : Concatenation) : c.toJson.IsStorable := by
  have hfilters : IsStorable (.array (c.filters.map Filter.toJson)) :=
    .array (by simp [Filter.isStorable])
  exact .object (by simp [hfilters, IsStorable.string])

theorem FilterEntry.isStorable (e : FilterEntry) : e.toJson.IsStorable := by
  cases e with
  | leaf f => exact f.isStorable
  | concatenation c => exact c.isStorable

theorem FilterEntry.read_toValue {e : FilterEntry} (h : e.Valid) : read e.toValue = .ok e := by
  rw [read, Value.readJson, toValue, e.isStorable]
  change refused (ofJson e.toJson) = _
  rw [e.readsBack.ok h]
  rfl

/-- A stored filter set is read back as it was written if it is valid. -/
theorem FilterSet.read_toValue {s : FilterSet} (h : s.Valid) : read s.toValue = .ok s := by
  have hentries : (s.entries.map FilterEntry.toValue).mapM FilterEntry.read = .ok s.entries := by
    rw [Traversal.mapM_eq_ok_iff, List.forall₂_map_left_iff, List.forall₂_same]
    exact fun e he => FilterEntry.read_toValue (h e he)
  rw [read, toValue, Value.readItems, hentries]
  rfl

end DocumentStore
