import DocumentStore.Proofs.FieldPath.Canonical
import DocumentStore.Proofs.Filter.Compiled
import DocumentStore.Proofs.Filter.Meaning
import DocumentStore.Proofs.Filter.Valid

/-! The query of a valid filter answers as the filter means. Its operand is never refused when it is
run, except for a pattern that cannot be read without regard to case. -/

namespace DocumentStore

namespace Value

theorem equalsAny_eq_any {values : List Value} {target : Value}
    (h : target.same .null = false) :
    equalsAny values target = values.any (fun v => v.equals target) := by
  cases values with
  | nil => simp [equalsAny, h]
  | cons v values => rfl

theorem equals_bool (v : Value) (flag : Bool) :
    v.equals (.bool flag) = (Operation.is flag).accepts v := by
  cases v <;> simp [equals, asDouble?, same, Operation.accepts]

theorem equals_number (v : Value) (n : Number) :
    v.equals n.toValue = v.asDouble?.any (fun x => x == n.toFloat) := by
  cases n <;> cases v <;> simp [equals, asDouble?, same, Number.toValue, Number.toFloat]

theorem order?_number (v : Value) (n : Number) :
    v.order? n.toValue = v.asDouble?.bind (fun x => Double.order? x n.toFloat) := by
  cases n <;> cases v <;>
    simp [order?, asDouble?, Number.toValue, Number.toFloat, Double.orderOfDoubles_eq]

theorem asPosition?_toValue (p : Position) : p.toValue.asPosition? = some p := rfl

end Value

theorem Comparison.accepts_order (c : Comparison) (x y : Float) :
    (Double.order? x y).any c.accepts = c.holds x y := by
  have hswap := Double.order?_swap x y
  rw [Bool.eq_iff_iff]
  cases c <;>
    simp only [holds, decide_eq_true_eq, Double.lt_iff, Double.le_iff, Double.beq_iff, hswap] <;>
    cases Double.order? x y with
    | none => simp
    | some o => cases o <;> simp [accepts]

theorem Comparison.holdsOfAny_number (c : Comparison) (values : List Value) (n : Number) :
    c.holdsOfAny values n.toValue =
      values.any (fun v => v.asDouble?.any (fun x => c.holds x n.toFloat)) := by
  have hv : ∀ v : Value, (v.order? n.toValue).any c.accepts =
      v.asDouble?.any (fun x => c.holds x n.toFloat) := by
    intro v
    rw [Value.order?_number]
    cases v.asDouble? with
    | none => rfl
    | some x => exact c.accepts_order x n.toFloat
  simp only [holdsOfAny, hv]

namespace Query

theorem matchesOperators_pattern (values : List Value) (pattern : String) :
    matchesOperators none (Filter.patternOperators pattern) values 0
        (Filter.patternOperators pattern) =
      if (readCaseless? pattern).isNone then .error .malformedPattern
      else .ok (values.any (Operation.contains pattern).accepts) := by
  have hread : matchesOperator (Filter.patternOperators pattern) values "$regex"
      (.string pattern) =
        (readPattern pattern "i").map (fun p => patternMatchesAny p values) := rfl
  have hoptions : matchesOperator (Filter.patternOperators pattern) values "$options"
      (.string "i") = .ok true := rfl
  change matchesOperators none (Filter.patternOperators pattern) values 0
    [("$regex", .string pattern), ("$options", .string "i")] = _
  simp only [matchesOperators, show ("$regex" = "$not") = False by decide,
    show ("$options" = "$not") = False by decide, if_false, hread, hoptions]
  cases hp : readCaseless? pattern with
  | none =>
    have hflags : readPattern pattern "i" = .error .malformedPattern := by
      change Pattern.ofText? (.ofOptions "i") pattern = none at hp
      rw [readPattern, hp]
    rw [hflags]
    rfl
  | some p =>
    have hflags : readPattern pattern "i" = .ok p := by
      change Pattern.ofText? (.ofOptions "i") pattern = some p at hp
      rw [readPattern, hp]
    have haccepts : (Operation.contains pattern).accepts =
        fun v => v.asString?.any (fun text => p.isMatch text) := by
      funext v
      simp only [Operation.accepts, hp, Option.any_some]
    rw [hflags, haccepts]
    change (do if patternMatchesAny p values then _ else _) = Except.ok (patternMatchesAny p values)
    cases patternMatchesAny p values <;> rfl

theorem matchesOperators_comparison (values : List Value) (c : Comparison) (n : Number) :
    matchesOperators none [(c.operator, n.toValue)] values 0 [(c.operator, n.toValue)] =
      .ok (values.any (Operation.compare c n).accepts) := by
  have hne : c.operator ≠ "$not" := by cases c <;> decide
  have hany := c.holdsOfAny_number values n
  rw [matchesOperators_single _ _ _ _ _ hne]
  cases c with
  | eq =>
    have hnull : n.toValue.same .null = false := by cases n <;> simp [Number.toValue, Value.same]
    change Except.ok (Value.equalsAny values n.toValue) = _
    simp only [Value.equalsAny_eq_any hnull, Value.equals_number]
    rfl
  | _ => exact congrArg Except.ok hany

theorem matchesOperators_flag (values : List Value) (flag : Bool) :
    matchesOperators none [("$eq", .bool flag)] values 0 [("$eq", .bool flag)] =
      .ok (values.any (Operation.is flag).accepts) := by
  have hnull : (Value.bool flag).same .null = false := by simp [Value.same]
  rw [matchesOperators_single _ _ _ _ _ (by decide)]
  change Except.ok (Value.equalsAny values (.bool flag)) = _
  simp only [Value.equalsAny_eq_any hnull, Value.equals_bool]

theorem matchesOperators_region {spec : Document} {region : Region} (values : List Value)
    (h : Region.ofDocument spec = .ok region) :
    matchesOperators none [("$geoWithin", .document spec)] values 0
        [("$geoWithin", .document spec)] =
      .ok (values.any (fun v => v.asPosition?.any (fun p => region.contains p))) := by
  rw [matchesOperators_single _ _ _ _ _ (by decide)]
  change (Region.ofDocument spec).map
    (fun region => (values.filterMap Value.asPosition?).any (region.contains ·)) = _
  rw [h]
  refine congrArg Except.ok ?_
  change (values.filterMap Value.asPosition?).any (region.contains ·) = _
  rw [List.any_filterMap]
  refine congrArg values.any (funext fun v => ?_)
  cases v.asPosition? <;> rfl

theorem ofDocument_cap (center : Position) {angle : Float} (h : 0 ≤ angle) :
    Region.ofDocument [("$centerSphere", .array [center.toValue, .double angle])] =
      .ok (.cap center angle) := by
  have hangle : (Value.double angle).asDouble?.filter (fun r => 0 ≤ r) = some angle :=
    Option.filter_eq_some_iff.mpr ⟨rfl, decide_eq_true h⟩
  change Region.readCap (.array [center.toValue, .double angle]) = _
  rw [Region.readCap, Value.asPosition?_toValue]
  dsimp only
  rw [hangle]

theorem ofDocument_ring {ring : List Position} (hlong : 4 ≤ ring.length)
    (hclosed : isClosed ring = true) :
    Region.ofDocument [("$geometry", .document [("type", .string "Polygon"),
      ("coordinates", .array [.array (ring.map Position.toValue)])])] = .ok (.polygon ring) := by
  have hvertices : (ring.map Position.toValue).mapM Region.readVertex = .ok ring := by
    rw [List.mapM_map]
    exact (Traversal.mapM_eq_ok_map (g := id) (fun p _ => rfl)).trans (by rw [List.map_id])
  change ((ring.map Position.toValue).mapM Region.readVertex >>= Region.checkRing) = _
  rw [hvertices]
  change Region.checkRing ring = _
  rw [Region.checkRing, if_pos (by simp [hlong, hclosed])]

end Query

namespace Filter

open Query

theorem reached_text (f : Filter) (d : Document) :
    d.reached (.ofString f.key.text) = d.reached f.key := by
  rw [FieldPath.ofString_text]

theorem key_of_isIdentifier {f : Filter} (h : f.key.isIdentifier = true) :
    f.key = .ofString idKey := by
  have hs : f.key.segments = [idKey] := by simpa [FieldPath.isIdentifier] using h
  rw [← f.key.ofString_text, FieldPath.text, hs]
  rfl

theorem answer_identifier (text : String) (d : Document) :
    (Test.identifier text).answer d =
      .ok ((d.reached (.ofString idKey)).any (Value.isIdentifier text)) := by
  have hnull : (ObjectId.valueOfText text).same .null = false := by
    unfold ObjectId.valueOfText
    split <;> simp [Value.same]
  have hkey : isOperatorName idKey = false := by decide
  rw [Test.identifier, Test.answer, atKey_of_field _ hkey, Value.equalsAny_eq_any hnull]
  simp only [Value.equals_valueOfText]

theorem answer_operators {f : Filter} (hk : isOperatorName f.key.text = false) {ops : Document}
    (plain : Plain ops) (d : Document) :
    (Test.operators f.key ops plain).answer d =
      matchesOperators none ops (d.reached f.key) 0 ops := by
  rw [Test.answer, atKey_of_field _ hk, reached_text]

theorem answer_text {f : Filter} (hk : isOperatorName f.key.text = false) (text : String)
    (d : Document) :
    (Test.value f.key.text (.string text) rfl rfl).answer d =
      .ok ((d.reached f.key).any (Operation.equals text).accepts) := by
  have hnull : (Value.string text).same .null = false := by simp [Value.same]
  change atKey f.key.text (.ok (Value.equalsAny (d.reached (.ofString f.key.text))
    (.string text))) = _
  rw [atKey_of_field _ hk, reached_text, Value.equalsAny_eq_any hnull]
  simp only [Value.equals_string]
  rfl

theorem test_of_identifier {f : Filter} {text : String} (h : f.identifierText? = some text) :
    f.key.isIdentifier = true ∧ f.test = .identifier text ∧ f.isUnreadable = false := by
  obtain ⟨key, negate, operation⟩ := f
  cases hid : key.isIdentifier <;> cases operation <;>
    simp_all [identifierText?, test, isUnreadable]

theorem answer_operation {f : Filter} (hv : f.operation.Valid)
    (hk : isOperatorName f.key.text = false) (hid : f.identifierText? = none) (d : Document) :
    f.test.answer d =
      if f.isUnreadable then .error .malformedPattern
      else .ok ((d.reached f.key).any f.operation.accepts) := by
  have hops := fun {ops : Document} (plain : Plain ops) => answer_operators hk plain d
  have htext := fun text => answer_text hk text d
  obtain ⟨key, negate, operation⟩ := f
  cases operation with
  | contains text =>
    have hid : key.isIdentifier = false := by simpa [identifierText?] using hid
    simp only [test, isUnreadable, hid, Bool.false_eq_true, if_false, hops,
      matchesOperators_pattern, Bool.not_false, Bool.true_and]
  | equals text =>
    have hid : key.isIdentifier = false := by simpa [identifierText?] using hid
    simp only [test, isUnreadable, hid, Bool.false_eq_true, if_false, htext]
  | compare c operand => exact (hops _).trans (matchesOperators_comparison _ c operand)
  | is flag => exact (hops _).trans (matchesOperators_flag _ flag)
  | radius center kilometres =>
    have hangle : 0 ≤ kilometres / Geo.earthRadius :=
      Double.nonneg_div hv.2.2 hv.2.1 ⟨_, _, _, rfl⟩
    exact (hops _).trans (matchesOperators_region _ (ofDocument_cap center hangle))
  | area ring =>
    exact (hops _).trans (matchesOperators_region _ (ofDocument_ring hv.long hv.closed))

/-- On each document the test of a valid filter tells whether some value is accepted. -/
theorem answer_test {f : Filter} (hv : f.Valid) (hk : isOperatorName f.key.text = false)
    (d : Document) :
    f.test.answer d =
      if f.isUnreadable then .error .malformedPattern
      else .ok ((d.reached f.key).any f.accepts) := by
  cases hid : f.identifierText? with
  | some text =>
    obtain ⟨hkey, htest, hreadable⟩ := test_of_identifier hid
    have haccepts : f.accepts = Value.isIdentifier text := by
      funext v
      rw [accepts, hid]
    rw [htest, answer_identifier, hreadable, haccepts, key_of_isIdentifier hkey]
    rfl
  | none =>
    have haccepts : f.accepts = f.operation.accepts := by
      funext v
      rw [accepts, hid]
    rw [haccepts]
    exact answer_operation hv.operation hk hid d

/-- A comparison with a number is never refused, and has an answer for each value that is
reached. -/
theorem matches_comparison {key : FieldPath} (c : Comparison) (n : Number)
    (hk : isOperatorName key.text = false) :
    ∃ query, (Filter.new key (.compare c n)).toQuery = .ok query ∧ ∀ d : Document,
      d.matches query = .ok ((d.reached key).any (Operation.compare c n).accepts) := by
  let f := Filter.new key (.compare c n)
  have hanswer (d : Document) :
      f.test.answer d = .ok ((d.reached key).any (Operation.compare c n).accepts) :=
    (answer_operators (f := f) hk (plain_comparison c n.toValue) d).trans
      (matchesOperators_comparison _ c n)
  obtain ⟨query, hquery, hmatches⟩ := matches_test (f := f) rfl
  refine ⟨query, hquery, fun d => ?_⟩
  rw [hmatches, hanswer]
  exact congrArg Except.ok (Bool.bne_false _)

end Filter

end DocumentStore
