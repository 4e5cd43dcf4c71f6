import DocumentStore.Proofs.Filter.IntegerComparison
import DocumentStore.Proofs.Value.Disjoint

/-! What is read at a path is found by queries on the path. A path leads to one value where it is
read or written, and to many where it is queried, of which this value is one. It is then found as
itself, unless there is a double in it that is not a number. -/

namespace DocumentStore

namespace Value

/-- The values directly inside a value. -/
def inner : Value → List Value
  | array items => items
  | document fields => fields.map Prod.snd
  | scopedCode _ scope => scope.map Prod.snd
  | _ => []

/-- A value has a property, and so has everything inside it. -/
inductive Everywhere (p : Value → Prop) : Value → Prop
  | intro {v : Value} (h : p v) (hinner : ∀ w ∈ v.inner, Everywhere p w) : Everywhere p v

/-- No double that is not a number. -/
def IsNumber : Value → Prop
  | double x => x.isNaN = false
  | _ => True

/-- A document has each of its keys once. -/
def IsKeyed : Value → Prop
  | document fields => (fields.map Prod.fst).Nodup
  | scopedCode _ scope => (scope.map Prod.fst).Nodup
  | _ => True

theorem sameItems_self {items : List Value} (h : ∀ v ∈ items, v.same v = true) :
    sameItems items items = true := by
  refine sameItems_iff.mpr ⟨rfl, fun i v hv => ⟨v, hv, ?_⟩⟩
  exact h v (List.mem_of_getElem? hv)

theorem sameFields_self {fields : Document} (hkeys : (fields.map Prod.fst).Nodup)
    (h : ∀ v ∈ fields.map Prod.snd, v.same v = true) : sameFields fields fields = true := by
  refine sameFields_iff.mpr fun entry hentry => ⟨entry.2, ?_, ?_⟩
  · exact Document.get_of_mem hkeys hentry
  · exact h entry.2 (List.mem_map_of_mem hentry)

theorem same_self {v : Value} (hnumbers : v.Everywhere IsNumber) (hkeys : v.Everywhere IsKeyed) :
    v.same v = true := by
  induction hnumbers with
  | @intro v hnumber _ ih =>
    obtain ⟨hkey, hkeys⟩ := hkeys
    have hinner : ∀ w ∈ v.inner, w.same w = true := fun w hw => ih w hw (hkeys w hw)
    cases v with
    | double x => exact Double.beq_self hnumber
    | array items => exact sameItems_self hinner
    | document fields => simpa [same] using sameFields_self hkey hinner
    | scopedCode s scope => simpa [same] using sameFields_self hkey hinner
    | _ => simp [same]

/-- Whole numbers are compared as doubles as well. -/
theorem equals_of_asInt? {v : Value} {m : Int} (h : v.asInt? = some m) : v.equals v = true := by
  obtain ⟨hdouble, hm⟩ := double_of_asInt? h
  rw [equals, hdouble]
  exact Double.ofInt_beq_self hm

theorem equals_self {v : Value} (hnumbers : v.Everywhere IsNumber) (hkeys : v.Everywhere IsKeyed) :
    v.equals v = true := by
  have hsame := same_self hnumbers hkeys
  cases v with
  | int32 n => exact equals_of_asInt? rfl
  | int64 n => exact equals_of_asInt? rfl
  | _ => exact hsame

theorem equalsAny_of_mem {values : List Value} {v target : Value} (hmem : v ∈ values)
    (h : v.equals target = true) : equalsAny values target = true := by
  have hne : values.isEmpty = false := by
    cases values with
    | nil => cases hmem
    | cons w values => rfl
  rw [equalsAny, hne, if_neg (by simp)]
  exact List.any_eq_true.mpr ⟨v, hmem, h⟩

theorem mem_steps_of_child {v next : Value} {segment : String} (h : child v segment = some next) :
    next ∈ steps segment v := by
  cases v with
  | document fields => exact Option.mem_toList.mpr h
  | array items => exact List.mem_append_left _ (Option.mem_toList.mpr h)
  | _ => cases h

/-- What is read at the end of a path is among what a query reaches there. -/
theorem mem_reached_of_getAt {v w : Value} {segments : List String}
    (h : getAt v segments = some w) : w ∈ reached segments v := by
  induction segments generalizing v with
  | nil =>
    obtain rfl := Option.some.inj h
    cases v with
    | array items => exact List.mem_cons_self
    | _ => exact List.mem_singleton_self _
  | cons segment rest ih =>
    obtain ⟨next, hnext, hrest⟩ := Option.bind_eq_some_iff.mp h
    exact List.mem_flatMap.mpr ⟨next, mem_steps_of_child hnext, ih hrest⟩

end Value

namespace Document

theorem mem_reached_of_getPath {d : Document} {path : FieldPath} {v : Value}
    (h : getPath d path = some v) : v ∈ d.reached path := by
  have hne := segments_ne_nil_of_getPath h
  rw [← getAt_document hne] at h
  obtain ⟨segment, rest, hsegments⟩ := List.exists_cons_of_ne_nil hne
  rw [reached, hsegments]
  rw [hsegments] at h
  exact Value.mem_reached_of_getAt h

end Document

/-- The operation of a filter that looks for a value. -/
def Operation.seeking? : Value → Option Operation
  | .string s => some (.equals s)
  | .bool b => some (.is b)
  | .int32 n => some (.compare .eq (.int n.toInt64))
  | .int64 n => some (.compare .eq (.int n))
  | .double x => some (.compare .eq (.float x))
  | _ => none

namespace Filter

open Query

variable {path : FieldPath} {v : Value} {op : Operation}

theorem accepts_of_seeking (hnumbers : v.Everywhere Value.IsNumber)
    (h : Operation.seeking? v = some op) : op.accepts v = true := by
  cases v with
  | string s =>
    obtain rfl := Option.some.inj h
    simp [Operation.accepts, Value.asString?]
  | bool b =>
    obtain rfl := Option.some.inj h
    simp [Operation.accepts]
  | int32 n =>
    obtain rfl := Option.some.inj h
    obtain ⟨hdouble, hm⟩ := Value.double_of_asInt? (v := .int32 n) rfl
    have hsame : n.toInt64.toInt = n.toInt := Int32.toInt_toInt64 n
    rw [Operation.accepts, hdouble, Option.any_some, Comparison.holds, Number.toFloat, hsame]
    exact Double.ofInt_beq_self hm
  | int64 n =>
    obtain rfl := Option.some.inj h
    exact Double.ofInt_beq_self (natAbs_toInt_lt n)
  | double x =>
    obtain rfl := Option.some.inj h
    obtain ⟨hx, -⟩ := hnumbers
    exact Double.beq_self hx
  | _ => cases h

/-- A filter that looks for a value is compiled, and answers whether the value is reached. -/
theorem answer_of_seeking (hkey : isOperatorName path.text = false)
    (hid : path.isIdentifier = false) (h : Operation.seeking? v = some op) (d : Document) :
    (Filter.new path op).isCompilable = true ∧
      (Filter.new path op).test.answer d = .ok ((d.reached path).any op.accepts) := by
  have hoperators {ops : Document} (plain : Plain ops) :=
    answer_operators (f := Filter.new path op) hkey plain d
  have htext := fun text => answer_text (f := Filter.new path op) hkey text d
  cases v with
  | string s =>
    obtain rfl := Option.some.inj h
    refine ⟨rfl, ?_⟩
    simp only [test, Filter.new, hid] at htext ⊢
    exact htext s
  | bool b =>
    obtain rfl := Option.some.inj h
    exact ⟨rfl, (hoperators _).trans (matchesOperators_flag _ b)⟩
  | int32 n =>
    obtain rfl := Option.some.inj h
    exact ⟨rfl, (hoperators _).trans (matchesOperators_comparison _ .eq (.int n.toInt64))⟩
  | int64 n =>
    obtain rfl := Option.some.inj h
    exact ⟨rfl, (hoperators _).trans (matchesOperators_comparison _ .eq (.int n))⟩
  | double x =>
    obtain rfl := Option.some.inj h
    exact ⟨rfl, (hoperators _).trans (matchesOperators_comparison _ .eq (.float x))⟩
  | _ => cases h

end Filter

namespace Document

/-- A value at a path is found there, and so is a value that was written, unless it has a double in
it that is not a number. A path that starts like an operator is no key of a query, and identifiers
are looked for in another way. -/
theorem found_where_read {path : FieldPath} {v : Value}
    (hkey : isOperatorName path.text = false) (hnumbers : v.Everywhere Value.IsNumber)
    (hkeys : v.Everywhere Value.IsKeyed) :
    (∀ d : Document, getPath d path = some v → v ∈ d.reached path ∧
      d.matches [(path.text, .document [("$eq", v)])] = .ok true ∧
      d.matches [(path.text, .document [("$ne", v)])] = .ok false) ∧
    ∀ d : Document, (setPath d path v).1 = none → path.isIdentifier = false →
      ∀ op, Operation.seeking? v = some op → ∃ query query',
        (Filter.new path op).toQuery = .ok query ∧
        (Filter.new path op).negated.toQuery = .ok query' ∧
        (setPath d path v).2.matches query = .ok true ∧
        (setPath d path v).2.matches query' = .ok false := by
  constructor
  · intro d h
    have hmem := mem_reached_of_getPath h
    have hany := Value.equalsAny_of_mem hmem (Value.equals_self hnumbers hkeys)
    refine ⟨hmem, ?_, ?_⟩
    · rw [Query.matches_operator d v hkey (by decide) (by decide), FieldPath.ofString_text]
      exact congrArg Except.ok hany
    · rw [Query.matches_operator d v hkey (by decide) (by decide), FieldPath.ofString_text]
      exact congrArg (fun b => Except.ok (!b)) hany
  · intro d h hid op hop
    have hmem := mem_reached_of_getPath (getPath_setPath h)
    let f := Filter.new path op
    obtain ⟨hcompilable, hanswer⟩ := Filter.answer_of_seeking hkey hid hop (setPath d path v).2
    have haccepts : ((setPath d path v).2.reached path).any op.accepts = true :=
      List.any_eq_true.mpr ⟨v, hmem, Filter.accepts_of_seeking hnumbers hop⟩
    rw [haccepts] at hanswer
    have hquery (negate : Bool) : ({ f with negate } : Filter).toQuery =
        .ok (f.test.toQuery negate) := by
      rw [Filter.toQuery_eq_test]
      exact if_pos hcompilable
    refine ⟨_, _, hquery false, hquery true, ?_, ?_⟩
    · rw [Filter.Test.matches_toQuery, hanswer]
      rfl
    · rw [Filter.Test.matches_toQuery, hanswer]
      rfl

/-- A length is written into a second row, which is made for it. -/
theorem found_where_read_km :
    let d : Document := [("rows", .array [.null])]
    let path : FieldPath := .ofString "rows[1].km"
    let d' : Document := (setPath d path (.double 2.5)).2
    d'.matches [("rows.1.km", .document [("$eq", .double 2.5)])] = .ok true ∧
      ∃ query, (Filter.new path (.compare .eq (.float 2.5))).negated.toQuery = .ok query ∧
        d'.matches query = .ok false := by
  intro d path d'
  have htext : path.text = "rows.1.km" := by decide +kernel
  have hkey : isOperatorName path.text = false := by rw [htext]; decide
  have hnumbers : (Value.double 2.5).Everywhere Value.IsNumber :=
    ⟨show (2.5 : Float).isNaN = false by decide +kernel, by simp [Value.inner]⟩
  have hkeys : (Value.double 2.5).Everywhere Value.IsKeyed := ⟨trivial, by simp [Value.inner]⟩
  have hwritten : (setPath d path (.double 2.5)).1 = none := rfl
  obtain ⟨hread, hfilter⟩ := found_where_read hkey hnumbers hkeys
  obtain ⟨-, query, -, hquery, -, hrefuses⟩ := hfilter d hwritten (by decide +kernel) _ rfl
  obtain ⟨-, hfound, -⟩ := hread d' (getPath_setPath hwritten)
  rw [htext] at hfound
  exact ⟨hfound, query, hquery, hrefuses⟩

end Document

end DocumentStore
