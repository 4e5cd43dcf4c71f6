import DocumentStore.Proofs.Filter.Compiled
import DocumentStore.Proofs.Query.Conjunction
import DocumentStore.Proofs.Traversal

/-! The plans of filter sets. A compiled entry nests a negation in a combinator at most, so that a
plan and what is added to it may be run stage by stage or as one query with the same outcome. -/

namespace DocumentStore

def Filter.query (f : Filter) : Document :=
  f.test.toQuery f.negate

namespace FilterEntry

def isCompilable : FilterEntry → Bool
  | leaf f => f.isCompilable
  | concatenation c => c.filters.all Filter.isCompilable

def query : FilterEntry → Document
  | leaf f => f.query
  | concatenation c =>
    [(c.combinator.operator, .array ((c.filters.map Filter.query).map .document))]

theorem toQuery_of_isCompilable {e : FilterEntry} (h : e.isCompilable = true) :
    e.toQuery = .ok e.query := by
  cases e with
  | leaf f =>
    have hf : f.isCompilable = true := h
    rw [toQuery, f.toQuery_eq_test, hf]
    rfl
  | concatenation c =>
    have hs : c.filters.mapM Filter.toQuery = .ok (c.filters.map Filter.query) := by
      refine Traversal.mapM_eq_ok_map ?_
      intro f hf
      rw [f.toQuery_eq_test, List.all_eq_true.mp h f hf]
      rfl
    rw [toQuery, Concatenation.toQuery, hs]
    rfl

theorem eq_query_of_toQuery {e : FilterEntry} {q : Document} (h : e.toQuery = .ok q) :
    q = e.query := by
  cases e with
  | leaf f =>
    rw [toQuery, f.toQuery_eq_test] at h
    split at h
    · exact (Except.ok.inj h).symm
    · cases h
  | concatenation c =>
    obtain ⟨queries, hqs, hq⟩ := Traversal.bind_eq_ok_iff.mp h
    have hmap : queries = c.filters.map Filter.query := by
      refine Traversal.eq_map_of_mapM hqs ?_
      intro f hf query hquery
      rw [f.toQuery_eq_test] at hquery
      split at hquery
      · exact (Except.ok.inj hquery).symm
      · cases hquery
    rw [← Except.ok.inj hq, hmap, query]

theorem clausesNesting_le (filters : List Filter) :
    Query.clausesNesting ((filters.map Filter.query).map .document) ≤ 1 := by
  induction filters with
  | nil => simp [Query.clausesNesting]
  | cons f filters ih =>
    have hf : Query.nesting f.query ≤ 1 := f.test.nesting_toQuery_le f.negate
    rw [List.map_cons, List.map_cons, Query.clausesNesting, Query.clauseNesting]
    omega

/-- A combinator and a negation below it. -/
theorem nesting_query_le (e : FilterEntry) : Query.nesting e.query ≤ 2 := by
  cases e with
  | leaf f =>
    have hf : Query.nesting f.query ≤ 1 := f.test.nesting_toQuery_le f.negate
    rw [query]
    omega
  | concatenation c =>
    have hc := clausesNesting_le c.filters
    rw [query, Query.nesting, Query.entryNesting, Query.nesting]
    split <;> omega

end FilterEntry

namespace MatchPlan

theorem ofFilterSet_of_isCompilable {s : FilterSet} (h : ∀ e ∈ s.entries, e.isCompilable = true) :
    ofFilterSet s = .ok ⟨s.entries.map FilterEntry.query⟩ := by
  have hs : s.entries.mapM FilterEntry.toQuery = .ok (s.entries.map FilterEntry.query) :=
    Traversal.mapM_eq_ok_map (fun e he => FilterEntry.toQuery_of_isCompilable (h e he))
  rw [ofFilterSet, hs]
  rfl

theorem conjuncts_of_ofFilterSet {s : FilterSet} {plan : MatchPlan} (h : ofFilterSet s = .ok plan) :
    plan.conjuncts = s.entries.map FilterEntry.query := by
  obtain ⟨queries, hqs, rfl⟩ := Traversal.map_eq_ok_iff.mp h
  exact Traversal.eq_map_of_mapM hqs (fun e _ q hq => FilterEntry.eq_query_of_toQuery hq)

theorem conjuncts_foldl_and (plan : MatchPlan) (extra : List Document) :
    (extra.foldl and plan).conjuncts = plan.conjuncts ++ extra := by
  induction extra generalizing plan with
  | nil => simp
  | cons q extra ih => simp [ih, and]

theorem run_single_selects (plan : MatchPlan) (ds : List Document)
    (h : ∀ q ∈ plan.conjuncts, Query.nesting q < maxQueryDepth) :
    Query.Selects (Query.conjunction plan.conjuncts) ds
      (Pipeline.run (Pipeline.ofStages [.filter plan.single]) ds) := by
  have hrun : Pipeline.run (Pipeline.ofStages [.filter plan.single]) ds =
      Stage.keep plan.single ds := by
    rw [Query.run_filter_cons]
    cases Stage.keep plan.single ds <;> rfl
  rw [hrun]
  exact (Query.keep_selects plan.single ds).congr (fun d => plan.matches_single d h)

/-- The forms of a plan agree. A plan of a filter set, extended by any queries within the limit on
nesting, keeps the same documents stage by stage as it does in one query, or both are refused. -/
theorem stages_agree_single (s : FilterSet) (plan : MatchPlan) (hs : ofFilterSet s = .ok plan)
    (extra : List Document) (hextra : ∀ q ∈ extra, Query.nesting q ≤ 31) (ds : List Document) :
    Query.Agree (Pipeline.run (Pipeline.ofStages (extra.foldl and plan).stages) ds)
      (Pipeline.run (Pipeline.ofStages [.filter (extra.foldl and plan).single]) ds) := by
  have hnesting : ∀ q ∈ (extra.foldl and plan).conjuncts, Query.nesting q < maxQueryDepth := by
    intro q hq
    rw [conjuncts_foldl_and, conjuncts_of_ofFilterSet hs] at hq
    rcases List.mem_append.mp hq with hq | hq
    · obtain ⟨e, -, rfl⟩ := List.mem_map.mp hq
      exact Nat.lt_of_le_of_lt e.nesting_query_le (by decide)
    · exact Nat.lt_of_le_of_lt (hextra q hq) (by decide)
  have hstages := Query.run_filters_selects (extra.foldl and plan).conjuncts ds
  exact hstages.agree (run_single_selects _ ds hnesting)

/-- A query that cannot be evaluated makes both forms of a plan fail. With one that can be, both
keep the documents that satisfy it and the set, and drop the others. -/
theorem stages_agree_single_sample :
    let s : FilterSet := ⟨[.concatenation ⟨.or, [⟨.ofString "title", false, .equals "photo"⟩,
      ⟨.ofString "_id", true, .contains "a"⟩]⟩]⟩
    let stored (title : String) (published : Bool) : Document :=
      [("_id", .string "a"), ("title", .string title), ("public", .bool published)]
    let ds : List Document := [stored "photo" true, stored "map" true, stored "photo" false]
    let unknown : List Document := [[("$nor", .null)]]
    let published : List Document := [[("public", .bool true)], []]
    ∃ plan, ofFilterSet s = .ok plan ∧
      (∃ fault fault',
        Pipeline.run (Pipeline.ofStages (unknown.foldl and plan).stages) ds = .error fault ∧
        Pipeline.run (Pipeline.ofStages [.filter (unknown.foldl and plan).single]) ds =
          .error fault') ∧
      Pipeline.run (Pipeline.ofStages (published.foldl and plan).stages) ds =
        .ok [stored "photo" true] ∧
      Pipeline.run (Pipeline.ofStages [.filter (published.foldl and plan).single]) ds =
        .ok [stored "photo" true] := by
  intro s stored ds unknown published
  have hs : ofFilterSet s = .ok ⟨s.entries.map FilterEntry.query⟩ :=
    ofFilterSet_of_isCompilable (by decide +kernel)
  have hunknown : ∀ q ∈ unknown, Query.nesting q ≤ 31 := by
    intro q hq
    obtain rfl := List.mem_singleton.mp hq
    decide +kernel
  have hpublished : ∀ q ∈ published, Query.nesting q ≤ 31 := by
    intro q hq
    simp only [published, List.mem_cons, List.not_mem_nil, or_false] at hq
    rcases hq with rfl | rfl <;> decide +kernel
  refine ⟨_, hs, ?_, rfl, ?_⟩
  · rcases stages_agree_single s _ hs unknown hunknown ds with ⟨kept, hkept, -⟩ | hrefused
    · cases hkept
    · exact hrefused
  · rcases stages_agree_single s _ hs published hpublished ds with
      ⟨kept, hkept, hsingle⟩ | ⟨fault, fault', hrefused, -⟩
    · obtain rfl := Except.ok.inj hkept
      exact hsingle
    · cases hrefused

end MatchPlan

end DocumentStore
