import DocumentStore.Query.Matching

/-! How deep the combinators of a query are nested, and that the limit on nesting only ever refuses.
Every query, well-formed or not, is answered and refused at each depth as it is without a limit,
unless it is nested beyond the limit and refused for that. -/

namespace DocumentStore

/-- Whether a query is refused for its nesting. -/
def QueryFault.isNesting : QueryFault → Bool
  | depthExceeded _ => true
  | nestedTooDeep => true
  | _ => false

namespace Query

mutual

/-- The nesting of negations in operators. -/
def operatorNesting : List (String × Value) → Nat
  | [] => 0
  | (operator, arg) :: rest =>
    max (if operator = "$not" then conditionNesting arg + 1 else 0) (operatorNesting rest)

/-- A document that is compared as a value has no operators. -/
def conditionNesting : Value → Nat
  | .document fields => if Document.isOperators fields then operatorNesting fields else 0
  | _ => 0

end

mutual

/-- The nesting of conjunctions, disjunctions and negations in a query. -/
def nesting : List (String × Value) → Nat
  | [] => 0
  | (key, condition) :: rest => max (entryNesting key condition) (nesting rest)

def entryNesting (key : String) : Value → Nat
  | .array clauses => if key = "$and" ∨ key = "$or" then clausesNesting clauses + 1 else 0
  | condition => conditionNesting condition

def clausesNesting : List Value → Nat
  | [] => 0
  | clause :: rest => max (clauseNesting clause) (clausesNesting rest)

def clauseNesting : Value → Nat
  | .document fields => nesting fields
  | _ => 0

end

def Within (limit : Option Nat) (depth : Nat) : Prop :=
  ∀ n, limit = some n → depth ≤ n

theorem Within.mono {limit : Option Nat} {depth depth' : Nat} (h : Within limit depth)
    (hle : depth' ≤ depth) : Within limit depth' :=
  fun n hn => Nat.le_trans hle (h n hn)

theorem Within.not_beyond {limit : Option Nat} {depth : Nat} (h : Within limit depth) :
    ¬ isBeyond limit depth = true := by
  cases limit with
  | none => simp [isBeyond]
  | some n => simpa [isBeyond] using h n rfl

theorem within_unlimited (depth : Nat) : Within none depth := by
  intro n hn
  cases hn

theorem within_of_le {n depth : Nat} (h : depth ≤ n) : Within (some n) depth := by
  intro m hm
  cases hm
  exact h

/-- Two results are the same up to a depth: where the depth is beyond the limit, the first may be
a refusal of the nesting instead. -/
def AgreeUpTo (limit : Option Nat) (depth : Nat) (r r' : Except QueryFault Bool) : Prop :=
  r = r' ∨ isBeyond limit depth = true ∧ ∃ fault, fault.isNesting = true ∧ r = .error fault

namespace AgreeUpTo

variable {limit : Option Nat} {depth depth' : Nat} {r r' s s' : Except QueryFault Bool}

theorem refl (r : Except QueryFault Bool) : AgreeUpTo limit depth r r :=
  .inl rfl

theorem of_beyond {fault : QueryFault} (h : isBeyond limit depth = true)
    (hfault : fault.isNesting = true) (r' : Except QueryFault Bool) :
    AgreeUpTo limit depth (.error fault) r' :=
  .inr ⟨h, fault, hfault, rfl⟩

theorem mono (h : AgreeUpTo limit depth r r') (hle : depth ≤ depth') :
    AgreeUpTo limit depth' r r' := by
  refine h.imp_right fun ⟨hbeyond, hfault⟩ => ⟨?_, hfault⟩
  cases limit with
  | none => cases hbeyond
  | some n =>
    have hlt : n < depth := of_decide_eq_true hbeyond
    exact decide_eq_true (Nat.lt_of_lt_of_le hlt hle)

theorem bind {f g : Bool → Except QueryFault Bool} (h : AgreeUpTo limit depth r r')
    (hfg : ∀ b, AgreeUpTo limit depth (f b) (g b)) :
    AgreeUpTo limit depth (r >>= f) (r' >>= g) := by
  rcases h with rfl | ⟨hbeyond, fault, hfault, rfl⟩
  · cases r with
    | error fault => exact refl _
    | ok b => exact hfg b
  · exact of_beyond hbeyond hfault _

theorem map (f : Bool → Bool) (h : AgreeUpTo limit depth r r') :
    AgreeUpTo limit depth (r.map f) (r'.map f) := by
  rcases h with rfl | ⟨hbeyond, fault, hfault, rfl⟩
  · exact refl _
  · exact of_beyond hbeyond hfault _

theorem ite (p : Prop) [Decidable p] (h : AgreeUpTo limit depth r r')
    (hs : AgreeUpTo limit depth s s') :
    AgreeUpTo limit depth (if p then r else s) (if p then r' else s') := by
  by_cases hp : p
  · simpa only [if_pos hp] using h
  · simpa only [if_neg hp] using hs

theorem eq (h : AgreeUpTo limit depth r r') (hw : Within limit depth) : r = r' :=
  h.resolve_right fun hbeyond => hw.not_beyond hbeyond.1

end AgreeUpTo

mutual

/-- The walks with a limit and without one take the same branches. Their depths are not related: a
depth is only compared with the limit, and the second walk has none. -/
theorem matchesOperators_upTo (limit : Option Nat) (operators : Document) (values : List Value)
    (depth depth' : Nat) :
    ∀ ops : List (String × Value), AgreeUpTo limit (depth + operatorNesting ops)
      (matchesOperators limit operators values depth ops)
      (matchesOperators none operators values depth' ops)
  | [] => by
    simp only [matchesOperators]
    exact .refl _
  | (operator, arg) :: rest => by
    rw [operatorNesting]
    have hrest := matchesOperators_upTo limit operators values depth depth' rest
    by_cases hn : operator = "$not"
    · have harg := matchesNot_upTo limit values depth depth' arg
      simp only [matchesOperators, hn, if_true]
      exact .bind (harg.mono (by omega)) fun _ => .ite _ (hrest.mono (by omega)) (.refl _)
    · simp only [matchesOperators, hn, if_false]
      exact .bind (.refl _) fun _ => .ite _ (hrest.mono (by omega)) (.refl _)

theorem matchesNot_upTo (limit : Option Nat) (values : List Value) (depth depth' : Nat)
    (arg : Value) : AgreeUpTo limit (depth + (conditionNesting arg + 1))
      (matchesNot limit values depth arg) (matchesNot none values depth' arg) := by
  have hfree := (within_unlimited (depth' + 1)).not_beyond
  by_cases hbeyond : isBeyond limit (depth + 1) = true
  · have hrefused : matchesNot limit values depth arg = .error .nestedTooDeep := by
      cases arg <;> simp only [matchesNot, hbeyond, if_true]
    rw [hrefused]
    exact (AgreeUpTo.of_beyond hbeyond rfl _).mono (by omega)
  · cases arg with
    | document fields =>
      by_cases ho : Document.isOperators fields = true
      · have hfields := matchesOperators_upTo limit fields values (depth + 1) (depth' + 1) fields
        simp only [matchesNot, hbeyond, hfree, ho, conditionNesting, Bool.false_eq_true, if_false,
          if_true]
        exact (hfields.map _).mono (by omega)
      · simp only [matchesNot, hbeyond, hfree, ho, Bool.false_eq_true, if_false]
        exact .refl _
    | _ =>
      simp only [matchesNot, hbeyond, hfree, Bool.false_eq_true, if_false]
      exact .refl _

end

theorem matchesField_upTo (limit : Option Nat) (values : List Value) (depth depth' : Nat)
    (condition : Value) : AgreeUpTo limit (depth + conditionNesting condition)
      (matchesField limit values depth condition) (matchesField none values depth' condition) := by
  cases condition with
  | document fields =>
    by_cases ho : Document.isOperators fields = true
    · simp only [matchesField, conditionNesting, ho, if_true]
      exact matchesOperators_upTo limit fields values depth depth' fields
    · simp only [matchesField, ho, Bool.false_eq_true, if_false]
      exact .refl _
  | _ => exact .refl _

mutual

theorem matchesAll_upTo (limit : Option Nat) (d : Document) (depth depth' : Nat) :
    ∀ query : List (String × Value), AgreeUpTo limit (depth + nesting query)
      (matchesAll limit d depth query) (matchesAll none d depth' query)
  | [] => by
    simp only [matchesAll]
    exact .refl _
  | (key, condition) :: rest => by
    have hentry := matchesEntry_upTo limit d depth depth' key condition
    have hrest := matchesAll_upTo limit d depth depth' rest
    rw [nesting]
    simp only [matchesAll]
    exact .bind (hentry.mono (by omega)) fun _ => .ite _ (hrest.mono (by omega)) (.refl _)

theorem matchesEntry_upTo (limit : Option Nat) (d : Document) (depth depth' : Nat) (key : String)
    (condition : Value) : AgreeUpTo limit (depth + entryNesting key condition)
      (matchesEntry limit d depth key condition) (matchesEntry none d depth' key condition) := by
  have hfield := matchesField_upTo limit (d.reached (.ofString key)) depth depth' condition
  cases condition with
  | array clauses =>
    by_cases hk : key = "$and" ∨ key = "$or"
    · have heach := matchesEach_upTo limit d (depth + 1) (depth' + 1) clauses
      have hsome := matchesSome_upTo limit d (depth + 1) (depth' + 1) clauses
      simp only [matchesEntry, entryNesting, hk, if_true]
      exact .ite _ (.refl _) (.ite _
        (.ite _ (heach.mono (by omega)) (hsome.mono (by omega))) (.refl _))
    · simp only [matchesEntry, entryNesting, hk, if_false]
      exact .ite _ (.refl _) hfield
  | _ =>
    simp only [matchesEntry]
    exact .ite _ (.refl _) (.ite _ (.refl _) hfield)

theorem matchesEach_upTo (limit : Option Nat) (d : Document) (depth depth' : Nat) :
    ∀ clauses : List Value, AgreeUpTo limit (depth + clausesNesting clauses)
      (matchesEach limit d depth clauses) (matchesEach none d depth' clauses)
  | [] => by
    simp only [matchesEach]
    exact .refl _
  | clause :: rest => by
    have hclause := matchesClause_upTo limit d depth depth' clause
    have hrest := matchesEach_upTo limit d depth depth' rest
    rw [clausesNesting]
    simp only [matchesEach]
    exact .bind (hclause.mono (by omega)) fun _ => .ite _ (hrest.mono (by omega)) (.refl _)

theorem matchesSome_upTo (limit : Option Nat) (d : Document) (depth depth' : Nat) :
    ∀ clauses : List Value, AgreeUpTo limit (depth + clausesNesting clauses)
      (matchesSome limit d depth clauses) (matchesSome none d depth' clauses)
  | [] => by
    simp only [matchesSome]
    exact .refl _
  | clause :: rest => by
    have hclause := matchesClause_upTo limit d depth depth' clause
    have hrest := matchesSome_upTo limit d depth depth' rest
    rw [clausesNesting]
    simp only [matchesSome]
    exact .bind (hclause.mono (by omega)) fun _ => .ite _ (.refl _) (hrest.mono (by omega))

theorem matchesClause_upTo (limit : Option Nat) (d : Document) (depth depth' : Nat)
    (clause : Value) : AgreeUpTo limit (depth + clauseNesting clause)
      (matchesClause limit d depth clause) (matchesClause none d depth' clause) := by
  cases clause with
  | document fields =>
    by_cases hbeyond : isBeyond limit depth = true
    · simp only [matchesClause, hbeyond, if_true]
      exact (AgreeUpTo.of_beyond hbeyond rfl _).mono (by omega)
    · have hfields := matchesAll_upTo limit d depth depth' fields
      have hfree := (within_unlimited depth').not_beyond
      simp only [matchesClause, hbeyond, hfree, Bool.false_eq_true, if_false]
      exact hfields
  | _ =>
    simp only [matchesClause]
    exact .refl _

end

theorem matchesOperators_unlimited (limit : Option Nat) (operators : Document)
    (values : List Value) (depth depth' : Nat) (ops : List (String × Value))
    (h : Within limit (depth + operatorNesting ops)) :
    matchesOperators limit operators values depth ops =
      matchesOperators none operators values depth' ops :=
  (matchesOperators_upTo limit operators values depth depth' ops).eq h

theorem matchesAll_unlimited (limit : Option Nat) (d : Document) (depth depth' : Nat)
    (query : List (String × Value)) (h : Within limit (depth + nesting query)) :
    matchesAll limit d depth query = matchesAll none d depth' query :=
  (matchesAll_upTo limit d depth depth' query).eq h

/-- A depth only counts against the limit: where it is kept, every depth gives the same answer. -/
theorem matchesAll_depth {limit : Option Nat} (d : Document) {depth depth' : Nat}
    {query : List (String × Value)} (h : Within limit (depth + nesting query))
    (h' : Within limit (depth' + nesting query)) :
    matchesAll limit d depth query = matchesAll limit d depth' query :=
  (matchesAll_unlimited limit d depth 0 query h).trans
    (matchesAll_unlimited limit d depth' 0 query h').symm

/-- The limit never changes an answer. A query that is answered within the limit has this answer
without one, and a query that is nested no deeper than the limit is answered or refused as without
one. Only a query that is nested deeper may differ, and then it is refused for its nesting. -/
theorem matches_limit (query d : Document) :
    (∀ b, d.matches query = .ok b → matchesWithin none query d = .ok b) ∧
      (nesting query ≤ maxQueryDepth → d.matches query = matchesWithin none query d) ∧
      (d.matches query ≠ matchesWithin none query d →
        ∃ fault, fault.isNesting = true ∧ d.matches query = .error fault) := by
  have hlimit : AgreeUpTo (some maxQueryDepth) (0 + nesting query) (d.matches query)
      (matchesWithin none query d) := matchesAll_upTo (some maxQueryDepth) d 0 0 query
  refine ⟨fun b hb => ?_, fun hn => hlimit.eq (within_of_le (by omega)), fun hne => ?_⟩
  · rcases hlimit with hsame | ⟨-, fault, -, hfault⟩
    · exact hsame.symm.trans hb
    · rw [hfault] at hb
      cases hb
  · exact (hlimit.resolve_left hne).2

/-- Thirty-two negations are the most that are tried: one more is refused, and would be answered. -/
theorem matches_limit_negations :
    let negations (n : Nat) : Document :=
      [("size", n.repeat (fun v => .document [("$not", v)]) (.document [("$eq", .int32 1)]))]
    let d : Document := [("size", .int32 1)]
    nesting (negations 32) = 32 ∧ (d.matches (negations 32)).toOption = some true ∧
      (matchesWithin none (negations 33) d).toOption = some false ∧
      ∃ fault, fault.isNesting = true ∧ d.matches (negations 33) = .error fault := by
  intro negations d
  obtain ⟨-, hwithin, -⟩ := matches_limit (negations 32) d
  obtain ⟨-, -, hbeyond⟩ := matches_limit (negations 33) d
  have hnesting : nesting (negations 32) = 32 := by decide +kernel
  have hanswer : (matchesWithin none (negations 32) d).toOption = some true := by decide +kernel
  have hanswer' : (matchesWithin none (negations 33) d).toOption = some false := by decide +kernel
  have hrefused : (d.matches (negations 33)).toOption = none := by decide +kernel
  refine ⟨hnesting, ?_, hanswer', hbeyond fun hsame => ?_⟩
  · rw [hwithin (Nat.le_of_eq hnesting), hanswer]
  · rw [hsame, hanswer'] at hrefused
    cases hrefused

end Query

end DocumentStore
