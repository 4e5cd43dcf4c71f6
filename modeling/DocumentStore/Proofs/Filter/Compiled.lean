import DocumentStore.Proofs.Query.Conjunction

/-! The queries of filters. A filter and its negation test one key for the same operators or for the
same value, so that on each document both are refused for one reason or they give opposite
answers. -/

namespace DocumentStore

namespace Query

/-- Operators without a negation, which every depth treats alike. -/
structure Plain (operators : Document) : Prop where
  named : Document.isOperators operators = true
  flat : operatorNesting operators = 0

theorem isOperators_single {name : String} (arg : Value) (h : isOperatorName name = true) :
    Document.isOperators [(name, arg)] = true := h

theorem Plain.of_single {name : String} {arg : Value} (hn : isOperatorName name = true)
    (hne : name ≠ "$not") : Plain [(name, arg)] :=
  ⟨hn, by simp [operatorNesting, hne]⟩

/-- The answer for a key: combinators and other names of operators are no keys of documents. -/
def atKey (key : String) (answer : Except QueryFault Bool) : Except QueryFault Bool :=
  if key = "$and" ∨ key = "$or" then .error (.noClauses key)
  else if isOperatorName key then .error (.unknownTopLevelOperator key)
  else answer

theorem atKey_of_field {key : String} (answer : Except QueryFault Bool)
    (h : isOperatorName key = false) : atKey key answer = answer := by
  have hne : ¬ (key = "$and" ∨ key = "$or") := by
    rintro (rfl | rfl) <;> cases h
  simp only [atKey, hne, if_false, h, Bool.false_eq_true]

theorem map_atKey (key : String) (f : Bool → Bool) (answer : Except QueryFault Bool) :
    (atKey key answer).map f = atKey key (answer.map f) := by
  unfold atKey
  split
  · rfl
  · split <;> rfl

theorem matchesEntry_atKey (limit : Option Nat) (d : Document) (depth : Nat) (key : String)
    {condition : Value} (h : condition.asArray? = none) :
    matchesEntry limit d depth key condition =
      atKey key (matchesField limit (Document.reached d (.ofString key)) depth condition) := by
  cases condition with
  | array items => cases h
  | _ => rfl

theorem matchesOperators_single (limit : Option Nat) (operators : Document) (values : List Value)
    (depth : Nat) {name : String} (arg : Value) (h : name ≠ "$not") :
    matchesOperators limit operators values depth [(name, arg)] =
      matchesOperator operators values name arg := by
  simp only [matchesOperators, h, if_false, bind_pure_false]

/-- One operator on a field is tried on the values that the field reaches. -/
theorem matches_operator (d : Document) {key name : String} (arg : Value)
    (hkey : isOperatorName key = false) (hname : isOperatorName name = true)
    (hnot : name ≠ "$not") :
    d.matches [(key, .document [(name, arg)])] =
      matchesOperator [(name, arg)] (d.reached (.ofString key)) name arg := by
  rw [Document.matches, matchesWithin, matchesAll_single, matchesEntry_atKey _ _ _ _ rfl,
    atKey_of_field _ hkey, matchesField, if_pos (isOperators_single arg hname),
    matchesOperators_single _ _ _ _ _ hnot]

end Query

namespace Filter

open Query

/-- Operators without a negation of their own answer alike at the depth of a filter and below its
negation. -/
theorem matchesAll_negatable {limit : Option Nat} {operators : Document} (h : Plain operators)
    (key : FieldPath) (negate : Bool) (d : Document) {depth : Nat}
    (hw : Within limit (depth + 1)) :
    matchesAll limit d depth (negatable key negate operators) =
      atKey key.text ((matchesOperators none operators (d.reached (.ofString key.text)) 0
        operators).map (· != negate)) := by
  have hops : ∀ k, k ≤ depth + 1 → ∀ values, matchesOperators limit operators values k operators =
      matchesOperators none operators values 0 operators := by
    intro k hk values
    exact matchesOperators_unlimited limit operators values k 0 operators
      (hw.mono (by rw [h.flat]; omega))
  cases negate with
  | false =>
    rw [negatable, matchesAll_single, matchesEntry_atKey _ _ _ _ rfl]
    simp only [Bool.false_eq_true, if_false, matchesField, h.named, if_true,
      hops depth (by omega), Bool.bne_false]
    cases matchesOperators none operators (d.reached (.ofString key.text)) 0 operators <;> rfl
  | true =>
    have hnot := isOperators_single (.document operators)
      (show isOperatorName "$not" = true from rfl)
    rw [negatable, matchesAll_single, matchesEntry_atKey _ _ _ _ rfl]
    simp only [if_true, matchesField, hnot, matchesOperators, bind_pure_false, matchesNot,
      hw.not_beyond, Bool.false_eq_true, if_false, h.named, hops (depth + 1) (by omega),
      Bool.bne_true]

theorem matchesAll_equality (limit : Option Nat) (d : Document) (depth : Nat) (key : String)
    (negate : Bool) {value : Value} (ha : value.asArray? = none) (hd : value.asDocument? = none) :
    matchesAll limit d depth (equality key negate value) =
      atKey key (.ok (Value.equalsAny (d.reached (.ofString key)) value != negate)) := by
  cases negate with
  | false =>
    simp only [equality, Bool.false_eq_true, if_false]
    rw [matchesAll_single, matchesEntry_atKey _ _ _ _ ha]
    cases value with
    | document fields => cases hd
    | _ => simp only [matchesField, Bool.bne_false]
  | true =>
    have hne := isOperators_single value (show isOperatorName "$ne" = true from rfl)
    rw [equality, matchesAll_single, if_pos rfl, matchesEntry_atKey _ _ _ _ rfl]
    simp only [matchesField, hne, if_true]
    rw [matchesOperators_single _ _ _ _ _ (by decide)]
    simp only [matchesOperator, Bool.bne_true]

theorem plain_patternOperators (pattern : String) : Plain (patternOperators pattern) :=
  ⟨rfl, by simp [patternOperators, operatorNesting]⟩

theorem plain_comparison (c : Comparison) (arg : Value) : Plain [(c.operator, arg)] := by
  cases c <;> exact Plain.of_single rfl (by decide)

theorem valueOfText_scalar (text : String) :
    (ObjectId.valueOfText text).asArray? = none ∧
      (ObjectId.valueOfText text).asDocument? = none := by
  unfold ObjectId.valueOfText
  split <;> exact ⟨rfl, rfl⟩

/-- What the query of a filter tests, apart from its sign. -/
inductive Test where
  | operators (key : FieldPath) (ops : Document) (plain : Plain ops)
  | value (key : String) (target : Value) (notArray : target.asArray? = none)
    (notDocument : target.asDocument? = none)

namespace Test

def identifier (text : String) : Test :=
  value idKey (ObjectId.valueOfText text) (valueOfText_scalar text).1 (valueOfText_scalar text).2

def toQuery (negate : Bool) : Test → Document
  | operators key ops _ => negatable key negate ops
  | value key target _ _ => equality key negate target

def answer (d : Document) : Test → Except QueryFault Bool
  | operators key ops _ =>
    atKey key.text (matchesOperators none ops (d.reached (.ofString key.text)) 0 ops)
  | value key target _ _ => atKey key (.ok (Value.equalsAny (d.reached (.ofString key)) target))

theorem matchesAll_toQuery (t : Test) {limit : Option Nat} (negate : Bool) (d : Document)
    {depth : Nat} (hw : Within limit (depth + 1)) :
    matchesAll limit d depth (t.toQuery negate) = (t.answer d).map (· != negate) := by
  cases t with
  | operators key ops plain =>
    rw [toQuery, answer, matchesAll_negatable plain key negate d hw, map_atKey]
  | value key target ha hd =>
    rw [toQuery, answer, matchesAll_equality limit d depth key negate ha hd, map_atKey]
    rfl

theorem matches_toQuery (t : Test) (negate : Bool) (d : Document) :
    d.matches (t.toQuery negate) = (t.answer d).map (· != negate) :=
  t.matchesAll_toQuery negate d (within_of_le (by decide))

/-- The query of a filter nests at most the negation of its operators. -/
theorem nesting_toQuery_le (t : Test) (negate : Bool) : nesting (t.toQuery negate) ≤ 1 := by
  cases t with
  | operators key ops plain =>
    have hnot := isOperators_single (.document ops) (show isOperatorName "$not" = true from rfl)
    cases negate <;>
      simp [toQuery, negatable, nesting, entryNesting, conditionNesting, plain.flat,
        operatorNesting, hnot]
  | value key target ha hd =>
    cases negate with
    | false =>
      cases target with
      | array items => cases ha
      | document fields => cases hd
      | _ => simp [toQuery, equality, nesting, entryNesting, conditionNesting]
    | true => simp [toQuery, equality, nesting, entryNesting, conditionNesting, operatorNesting]

end Test

def isCompilable (f : Filter) : Bool :=
  match f.operation with
  | .contains pattern => f.key.isIdentifier || (Pattern.ofText? {} pattern).isSome
  | _ => true

def test (f : Filter) : Test :=
  match f.operation with
  | .contains text =>
    if f.key.isIdentifier then .identifier text
    else .operators f.key (patternOperators text) (plain_patternOperators text)
  | .equals text =>
    if f.key.isIdentifier then .identifier text else .value f.key.text (.string text) rfl rfl
  | .compare c operand =>
    .operators f.key [(c.operator, operand.toValue)] (plain_comparison c operand.toValue)
  | .is flag => .operators f.key [("$eq", .bool flag)] (.of_single rfl (by decide))
  | .radius center kilometres =>
    .operators f.key (capOperators center kilometres) (.of_single rfl (by decide))
  | .area ring => .operators f.key (ringOperators ring) (.of_single rfl (by decide))

/-- A filter is compiled to its test with its sign, or its pattern is refused. -/
theorem toQuery_eq_test (f : Filter) :
    f.toQuery = if f.isCompilable then .ok (f.test.toQuery f.negate)
      else .error (.operand f.key .notAPattern) := by
  obtain ⟨key, negate, operation⟩ := f
  cases operation with
  | contains pattern =>
    simp only [toQuery, isCompilable, test]
    cases key.isIdentifier with
    | true => rfl
    | false => cases (Pattern.ofText? {} pattern).isSome <;> rfl
  | equals text =>
    simp only [toQuery, isCompilable, test]
    cases key.isIdentifier <;> rfl
  | _ => rfl

/-- The query of a filter answers as its test does, with its sign. -/
theorem matches_test {f : Filter} (h : f.isCompilable = true) :
    ∃ query, f.toQuery = .ok query ∧
      ∀ d : Document, d.matches query = (f.test.answer d).map (· != f.negate) := by
  refine ⟨f.test.toQuery f.negate, ?_, fun d => f.test.matches_toQuery f.negate d⟩
  rw [f.toQuery_eq_test, if_pos h]

/-- Negation is complement. A filter and its negation are refused alike when they are compiled, and
on every document they are refused alike or answer the opposite. -/
theorem negated_complement (f : Filter) :
    (∃ fault, f.toQuery = .error fault ∧ f.negated.toQuery = .error fault) ∨
      ∃ query query', f.toQuery = .ok query ∧ f.negated.toQuery = .ok query' ∧
        ∀ d : Document,
          (∃ fault, d.matches query = .error fault ∧ d.matches query' = .error fault) ∨
            ∃ b, d.matches query = .ok b ∧ d.matches query' = .ok (!b) := by
  have hf := f.toQuery_eq_test
  have hn := f.negated.toQuery_eq_test
  rw [show f.negated.isCompilable = f.isCompilable from rfl,
    show f.negated.test = f.test from rfl, show f.negated.negate = !f.negate from rfl] at hn
  cases hc : f.isCompilable with
  | false => exact .inl ⟨_, by rw [hf, hc]; rfl, by rw [hn, hc]; rfl⟩
  | true =>
    rw [hc, if_pos rfl] at hf hn
    refine .inr ⟨_, _, hf, hn, ?_⟩
    intro d
    rw [f.test.matches_toQuery f.negate d, f.test.matches_toQuery (!f.negate) d]
    cases f.test.answer d with
    | error fault => exact .inl ⟨fault, rfl, rfl⟩
    | ok b =>
      refine .inr ⟨b != f.negate, rfl, ?_⟩
      cases b <;> cases f.negate <;> rfl

end Filter

end DocumentStore
