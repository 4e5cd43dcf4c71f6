import DocumentStore.Pipeline.Listing
import DocumentStore.Proofs.Query.Depth

/-! Plans as conjunctions. The queries of a plan may be run as one stage each over all documents or
as one query on each document; both keep the documents of which every query holds, and both are
refused if some document satisfies a part of the plan and its next query is refused. -/

namespace DocumentStore

namespace Query

def isYes : Except QueryFault Bool → Bool
  | .ok b => b
  | .error _ => false

/-- Queries tried in order. The first that fails or is refused decides. -/
def conjunction : List Document → Document → Except QueryFault Bool
  | [], _ => .ok true
  | query :: rest, d => do
    if ← d.matches query then conjunction rest d else return false

theorem conjunction_of_error {query : Document} {d : Document} {fault : QueryFault}
    (rest : List Document) (h : d.matches query = .error fault) :
    conjunction (query :: rest) d = .error fault := by
  simp only [conjunction, h]
  rfl

theorem conjunction_of_ok {query : Document} {d : Document} {b : Bool}
    (rest : List Document) (h : d.matches query = .ok b) :
    conjunction (query :: rest) d = if b then conjunction rest d else .ok false := by
  simp only [conjunction, h]
  rfl

theorem conjunction_singleton (query d : Document) : conjunction [query] d = d.matches query := by
  cases h : d.matches query with
  | error fault => exact conjunction_of_error [] h
  | ok b =>
    rw [conjunction_of_ok [] h]
    cases b <;> rfl

/-- What a test makes of documents that it is tried on in order: the documents that pass, or the
fault of one that is refused. -/
def Selects (test : Document → Except QueryFault Bool) (ds : List Document)
    (result : Except QueryFault (List Document)) : Prop :=
  ((∀ d ∈ ds, ∃ b, test d = .ok b) ∧ result = .ok (ds.filter (fun d => isYes (test d)))) ∨
    ∃ d ∈ ds, ∃ fault, test d = .error fault ∧ result = .error fault

theorem keep_selects (query : Document) (ds : List Document) :
    Selects (·.matches query) ds (Stage.keep query ds) := by
  induction ds with
  | nil => exact .inl ⟨by simp, rfl⟩
  | cons d ds ih =>
    cases h : d.matches query with
    | error fault =>
      refine .inr ⟨d, by simp, fault, h, ?_⟩
      simp only [Stage.keep, h]
      rfl
    | ok b =>
      rcases ih with ⟨hok, hr⟩ | ⟨d', hd, fault, hf, hr⟩
      · refine .inl ⟨?_, ?_⟩
        · intro d' hd
          rcases List.mem_cons.mp hd with rfl | hd
          · exact ⟨b, h⟩
          · exact hok d' hd
        · simp only [Stage.keep, h, hr]
          cases b <;> simp [h, isYes, bind, Except.bind, pure, Except.pure]
      · refine .inr ⟨d', by simp [hd], fault, hf, ?_⟩
        simp only [Stage.keep, h, hr]
        rfl

theorem run_filter_cons (query : Document) (stages : List Stage) (ds : List Document) :
    Pipeline.run (Pipeline.ofStages (.filter query :: stages)) ds =
      Stage.keep query ds >>= Pipeline.run (Pipeline.ofStages stages) := rfl

/-- Stage by stage over all documents, a document meets the next query only if it satisfied those
before it, so that the stages together are the conjunction of their queries. -/
theorem run_filters_selects (queries ds : List Document) :
    Selects (conjunction queries) ds
      (Pipeline.run (Pipeline.ofStages (queries.map .filter)) ds) := by
  induction queries generalizing ds with
  | nil =>
    have hall : ds.filter (fun d => isYes (conjunction [] d)) = ds := by
      simp [conjunction, isYes]
    exact .inl ⟨fun _ _ => ⟨true, rfl⟩, by rw [hall]; rfl⟩
  | cons query rest ih =>
    rw [List.map_cons, run_filter_cons]
    rcases keep_selects query ds with ⟨hok, hr⟩ | ⟨d, hd, fault, hf, hr⟩
    · rw [hr]
      change Selects _ _ (Pipeline.run _ (ds.filter (fun d => isYes (d.matches query))))
      rcases ih (ds.filter (fun d => isYes (d.matches query))) with
        ⟨hok', hr'⟩ | ⟨d, hd, fault, hf, hr'⟩
      · refine .inl ⟨?_, ?_⟩
        · intro d hd
          obtain ⟨b, hb : d.matches query = .ok b⟩ := hok d hd
          rw [conjunction_of_ok rest hb]
          cases b with
          | false => exact ⟨false, rfl⟩
          | true => exact hok' d (List.mem_filter.mpr ⟨hd, by simp [hb, isYes]⟩)
        · rw [hr', List.filter_filter]
          refine congrArg Except.ok (List.filter_congr ?_)
          intro d hd
          obtain ⟨b, hb : d.matches query = .ok b⟩ := hok d hd
          rw [conjunction_of_ok rest hb, hb]
          cases b <;> simp [isYes]
      · obtain ⟨hd, hy⟩ := List.mem_filter.mp hd
        obtain ⟨b, hb : d.matches query = .ok b⟩ := hok d hd
        refine .inr ⟨d, hd, fault, ?_, hr'⟩
        rw [hb] at hy
        rw [conjunction_of_ok rest hb, show b = true from hy, if_pos rfl, hf]
    · exact .inr ⟨d, hd, fault, conjunction_of_error rest hf, by rw [hr]; rfl⟩

theorem Selects.congr {test test' : Document → Except QueryFault Bool} {ds : List Document}
    {result : Except QueryFault (List Document)} (h : Selects test ds result)
    (he : ∀ d, test d = test' d) : Selects test' ds result := by
  rwa [show test = test' from funext he] at h

def Agree (r r' : Except QueryFault (List Document)) : Prop :=
  (∃ kept, r = .ok kept ∧ r' = .ok kept) ∨ ∃ fault fault', r = .error fault ∧ r' = .error fault'

theorem Selects.agree {test : Document → Except QueryFault Bool} {ds : List Document}
    {r r' : Except QueryFault (List Document)} (h : Selects test ds r) (h' : Selects test ds r') :
    Agree r r' := by
  rcases h with ⟨hok, hr⟩ | ⟨d, hd, fault, hf, hr⟩ <;>
    rcases h' with ⟨hok', hr'⟩ | ⟨d', hd', fault', hf', hr'⟩
  · exact .inl ⟨_, hr, hr'⟩
  · obtain ⟨b, hb⟩ := hok d' hd'
    rw [hb] at hf'
    cases hf'
  · obtain ⟨b, hb⟩ := hok' d hd
    rw [hb] at hf
    cases hf
  · exact .inr ⟨fault, fault', hr, hr'⟩

theorem bind_pure_false (r : Except QueryFault Bool) :
    (do if ← r then Except.ok true else return false) = r := by
  cases r with
  | error fault => rfl
  | ok b => cases b <;> rfl

theorem matchesAll_single (limit : Option Nat) (d : Document) (depth : Nat) (key : String)
    (condition : Value) :
    matchesAll limit d depth [(key, condition)] = matchesEntry limit d depth key condition := by
  simp only [matchesAll, bind_pure_false]

theorem matches_and (d : Document) {queries : List Document} (h : queries ≠ []) :
    d.matches [("$and", .array (queries.map .document))] =
      matchesEach (some maxQueryDepth) d 1 (queries.map .document) := by
  rw [Document.matches, matchesWithin, matchesAll_single]
  simp [matchesEntry, h, Value.asDocument?]

theorem matches_or (d : Document) {queries : List Document} (h : queries ≠ []) :
    d.matches [("$or", .array (queries.map .document))] =
      matchesSome (some maxQueryDepth) d 1 (queries.map .document) := by
  rw [Document.matches, matchesWithin, matchesAll_single]
  simp [matchesEntry, h, Value.asDocument?]

/-- The clauses of a combinator are one level deeper than the queries of stages. -/
theorem matchesClause_eq_matches (d : Document) {query : Document}
    (h : nesting query < maxQueryDepth) :
    matchesClause (some maxQueryDepth) d 1 (.document query) = d.matches query := by
  have hw : Within (some maxQueryDepth) (1 + nesting query) := within_of_le (by omega)
  have hb := (hw.mono (by omega : 1 ≤ _)).not_beyond
  simp only [matchesClause, hb, Bool.false_eq_true, if_false]
  exact matchesAll_depth d hw (hw.mono (by omega))

theorem matchesEach_eq_conjunction (d : Document) (queries : List Document)
    (h : ∀ q ∈ queries, nesting q < maxQueryDepth) :
    matchesEach (some maxQueryDepth) d 1 (queries.map .document) = conjunction queries d := by
  induction queries with
  | nil => simp only [List.map_nil, matchesEach, conjunction]
  | cons query rest ih =>
    have hclause := matchesClause_eq_matches d (h query (by simp))
    have hrest := ih (fun q hq => h q (by simp [hq]))
    simp only [List.map_cons, matchesEach, hclause, conjunction, hrest]

end Query

namespace MatchPlan

theorem matches_single (plan : MatchPlan) (d : Document)
    (h : ∀ q ∈ plan.conjuncts, Query.nesting q < maxQueryDepth) :
    d.matches plan.single = Query.conjunction plan.conjuncts d := by
  obtain ⟨conjuncts⟩ := plan
  match conjuncts, h with
  | [], _ => rfl
  | [query], _ => exact (Query.conjunction_singleton query d).symm
  | first :: second :: rest, h =>
    exact (Query.matches_and d (by simp)).trans (Query.matchesEach_eq_conjunction d _ h)

end MatchPlan

end DocumentStore
