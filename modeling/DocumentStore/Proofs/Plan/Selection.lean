import DocumentStore.Proofs.Filter.Evaluation
import DocumentStore.Proofs.Plan.Forms

/-! What the plan of a filter set selects. Of a set that was read, the plan keeps the documents of
which the set holds, unless one of them meets a pattern that cannot be read without regard to
case; then all of them are refused. -/

namespace DocumentStore

namespace Query

/-- A result that is refused for an expected fault, or else is a known value. -/
def Answers {β : Type} (expected : QueryFault → Prop) (refused : Bool) (value : β)
    (result : Except QueryFault β) : Prop :=
  if refused then ∃ fault, expected fault ∧ result = .error fault else result = .ok value

variable {α β : Type} {expected : QueryFault → Prop} {refused : Bool} {value : β}
  {result : Except QueryFault β} {query : α → Document} {bad holds : α → Bool} {xs : List α}
  {d : Document}

theorem Answers.eq_error_or_ok (h : Answers expected refused value result) :
    (refused = true ∧ ∃ fault, expected fault ∧ result = .error fault) ∨
      (refused = false ∧ result = .ok value) := by
  cases refused with
  | true => exact .inl ⟨rfl, h⟩
  | false => exact .inr ⟨rfl, h⟩

theorem answers_malformed_iff :
    Answers (· = .malformedPattern) refused value result ↔
      result = if refused then .error .malformedPattern else .ok value := by
  cases refused <;> simp [Answers]

theorem conjunction_answers
    (h : ∀ x ∈ xs, Answers expected (bad x) (holds x) (d.matches (query x))) :
    Answers expected (stuckFirst bad (fun x => !holds x) xs) (xs.all holds)
      (conjunction (xs.map query) d) := by
  induction xs with
  | nil => rfl
  | cons x xs ih =>
    have hrest := ih (fun y hy => h y (by simp [hy]))
    rcases (h x (by simp)).eq_error_or_ok with ⟨hb, fault, he, hx⟩ | ⟨hb, hx⟩
    · rw [List.map_cons, conjunction_of_error _ hx, stuckFirst_cons, hb]
      exact ⟨fault, he, rfl⟩
    · rw [List.map_cons, conjunction_of_ok _ hx, stuckFirst_cons, hb, List.all_cons]
      cases holds x with
      | false => rfl
      | true => exact hrest

theorem matchesSome_answers
    (h : ∀ x ∈ xs, Answers expected (bad x) (holds x) (d.matches (query x)))
    (hn : ∀ x ∈ xs, nesting (query x) < maxQueryDepth) :
    Answers expected (stuckFirst bad holds xs) (xs.any holds)
      (matchesSome (some maxQueryDepth) d 1 ((xs.map query).map .document)) := by
  induction xs with
  | nil => rfl
  | cons x xs ih =>
    have hclause := matchesClause_eq_matches d (hn x (by simp))
    have hrest := ih (fun y hy => h y (by simp [hy])) (fun y hy => hn y (by simp [hy]))
    rcases (h x (by simp)).eq_error_or_ok with ⟨hb, fault, he, hx⟩ | ⟨hb, hx⟩
    · rw [List.map_cons, List.map_cons, matchesSome, hclause, hx, stuckFirst_cons, hb]
      exact ⟨fault, he, rfl⟩
    · rw [List.map_cons, List.map_cons, matchesSome, hclause, hx, stuckFirst_cons, hb,
        List.any_cons]
      cases holds x with
      | false => exact hrest
      | true => rfl

theorem Selects.answers {test : Document → Except QueryFault Bool} {bad holds : Document → Bool}
    {ds : List Document} {result : Except QueryFault (List Document)} (h : Selects test ds result)
    (ha : ∀ d, Answers expected (bad d) (holds d) (test d)) :
    Answers expected (ds.any bad) (ds.filter holds) result := by
  rcases h with ⟨hok, hr⟩ | ⟨d, hd, fault, hf, hr⟩
  · have hfree : ∀ d ∈ ds, bad d = false ∧ test d = .ok (holds d) := by
      intro d hd
      obtain ⟨b, hb⟩ := hok d hd
      rcases (ha d).eq_error_or_ok with ⟨-, fault, -, hx⟩ | h
      · cases hb.symm.trans hx
      · exact h
    have hany : ds.any bad = false := by simpa using fun d hd => (hfree d hd).1
    rw [hr, hany]
    refine congrArg Except.ok (List.filter_congr ?_)
    intro d hd
    rw [(hfree d hd).2, isYes]
  · rcases (ha d).eq_error_or_ok with ⟨hb, fault', he, hx⟩ | ⟨-, hx⟩
    · rw [List.any_eq_true.mpr ⟨d, hd, hb⟩]
      cases hf.symm.trans hx
      exact ⟨fault, he, hr⟩
    · cases hf.symm.trans hx

end Query

def FilterSet.HasFieldKeys (s : FilterSet) : Prop :=
  ∀ f ∈ s.leaves, isOperatorName f.key.text = false

section Meets

variable (bad : Filter → Bool)

/-- Whether a bad filter is met before the filters in front of it decide. -/
def Concatenation.meets (c : Concatenation) (d : Document) : Bool :=
  match c.combinator with
  | .and => stuckFirst bad (fun f => !f.holds d) c.filters
  | .or => stuckFirst bad (fun f => f.holds d) c.filters

def FilterEntry.meets (e : FilterEntry) (d : Document) : Bool :=
  match e with
  | leaf f => bad f
  | concatenation c => c.meets bad d

def FilterSet.meets (s : FilterSet) (d : Document) : Bool :=
  stuckFirst (fun e => e.meets bad d) (fun e => !e.holds d) s.entries

theorem FilterSet.meets_isUnreadable (s : FilterSet) :
    s.meets Filter.isUnreadable = s.isStuck := by
  have hentry : ∀ d, (fun e : FilterEntry => e.meets Filter.isUnreadable d) =
      fun e => e.isStuck d := by
    intro d
    funext e
    cases e <;> rfl
  funext d
  rw [meets, hentry, isStuck]

variable {bad} {expected : QueryFault → Prop} {d : Document}

theorem Concatenation.answers_query {c : Concatenation} (hv : c.Valid)
    (h : ∀ f ∈ c.filters, Query.Answers expected (bad f) (f.holds d) (d.matches f.query)) :
    Query.Answers expected (c.meets bad d) (c.holds d)
      (d.matches (FilterEntry.concatenation c).query) := by
  have hnesting : ∀ f ∈ c.filters, Query.nesting f.query < maxQueryDepth :=
    fun f _ => Nat.lt_of_le_of_lt (f.test.nesting_toQuery_le f.negate) (by decide)
  have hne : c.filters.map Filter.query ≠ [] := by simpa using hv.nonempty
  obtain ⟨combinator, filters⟩ := c
  cases combinator with
  | and =>
    have heach := Query.matchesEach_eq_conjunction d (filters.map Filter.query)
      (by simpa using hnesting)
    have hand : d.matches (FilterEntry.concatenation ⟨.and, filters⟩).query =
        Query.conjunction (filters.map Filter.query) d := (Query.matches_and d hne).trans heach
    rw [hand]
    exact Query.conjunction_answers h
  | or =>
    have hor : d.matches (FilterEntry.concatenation ⟨.or, filters⟩).query =
        Query.matchesSome (some maxQueryDepth) d 1 ((filters.map Filter.query).map .document) :=
      Query.matches_or d hne
    rw [hor]
    exact Query.matchesSome_answers h hnesting

theorem FilterEntry.answers_query {e : FilterEntry} (hv : e.Valid)
    (h : ∀ f ∈ e.leaves, Query.Answers expected (bad f) (f.holds d) (d.matches f.query)) :
    Query.Answers expected (e.meets bad d) (e.holds d) (d.matches e.query) := by
  cases e with
  | leaf f => exact h f (by simp [leaves])
  | concatenation c => exact Concatenation.answers_query hv h

theorem FilterSet.answers_run {s : FilterSet} (hv : s.Valid)
    (h : ∀ d, ∀ f ∈ s.leaves, Query.Answers expected (bad f) (f.holds d) (d.matches f.query))
    (ds : List Document) :
    Query.Answers expected (ds.any (s.meets bad)) (ds.filter s.holds)
      (Pipeline.run
        (Pipeline.ofStages (MatchPlan.mk (s.entries.map FilterEntry.query)).stages) ds) := by
  refine (Query.run_filters_selects (s.entries.map FilterEntry.query) ds).answers ?_
  intro d
  refine Query.conjunction_answers ?_
  intro e he
  refine FilterEntry.answers_query (hv e he) ?_
  intro f hf
  exact h d f (List.mem_flatMap.mpr ⟨e, he, hf⟩)

end Meets

theorem Filter.answers_query {f : Filter} (hv : f.Valid) (hk : isOperatorName f.key.text = false)
    (d : Document) :
    Query.Answers (· = .malformedPattern) f.isUnreadable (f.holds d) (d.matches f.query) := by
  rw [Query.answers_malformed_iff, query, f.test.matches_toQuery, answer_test hv hk]
  unfold holds
  cases f.isUnreadable <;> rfl

theorem Filter.isCompilable_of_valid {f : Filter} (hv : f.Valid) : f.isCompilable = true := by
  have hoperand := hv.operation
  obtain ⟨key, negate, operation⟩ := f
  cases operation with
  | contains pattern => exact Bool.or_eq_true_iff.mpr (.inr hoperand)
  | _ => rfl

theorem FilterEntry.isCompilable_of_valid {e : FilterEntry} (hv : e.Valid) :
    e.isCompilable = true := by
  cases e with
  | leaf f => exact Filter.isCompilable_of_valid hv
  | concatenation c =>
    exact List.all_eq_true.mpr (fun f hf => Filter.isCompilable_of_valid (hv.filters f hf))

namespace FilterSet

theorem valid_of_mem_leaves {s : FilterSet} (hv : s.Valid) {f : Filter} (hf : f ∈ s.leaves) :
    f.Valid := by
  obtain ⟨e, he, hf⟩ := List.mem_flatMap.mp hf
  have hentry := hv e he
  cases e with
  | leaf g =>
    obtain rfl := List.mem_singleton.mp hf
    exact hentry
  | concatenation c => exact hentry.filters f hf

theorem run_queries {s : FilterSet} (hv : s.Valid) (hk : s.HasFieldKeys) (ds : List Document) :
    Pipeline.run (Pipeline.ofStages (MatchPlan.mk (s.entries.map FilterEntry.query)).stages) ds =
      if ds.any s.isStuck then .error .malformedPattern else .ok (ds.filter s.holds) := by
  rw [← s.meets_isUnreadable]
  refine Query.answers_malformed_iff.mp (answers_run hv ?_ ds)
  intro d f hf
  exact Filter.answers_query (valid_of_mem_leaves hv hf) (hk f hf) d

theorem stuckFirst_of_free {α : Type} {stuck : α → Bool} (decides : α → Bool) {xs : List α}
    (h : ∀ x ∈ xs, stuck x = false) : stuckFirst stuck decides xs = false := by
  induction xs with
  | nil => rfl
  | cons x xs ih =>
    rw [stuckFirst_cons, h x (by simp), ih (fun y hy => h y (by simp [hy]))]
    simp

theorem meets_of_free {bad : Filter → Bool} {s : FilterSet} (h : ∀ f ∈ s.leaves, bad f = false)
    (d : Document) : s.meets bad d = false := by
  refine stuckFirst_of_free _ ?_
  intro e he
  have hleaves : ∀ f ∈ e.leaves, bad f = false :=
    fun f hf => h f (List.mem_flatMap.mpr ⟨e, he, hf⟩)
  cases e with
  | leaf f => exact hleaves f (by simp [FilterEntry.leaves])
  | concatenation c =>
    have hfilters : ∀ f ∈ c.filters, bad f = false := hleaves
    change c.meets bad d = false
    unfold Concatenation.meets
    cases c.combinator <;> exact stuckFirst_of_free _ hfilters

theorem isStuck_of_readable {s : FilterSet} (h : ∀ f ∈ s.leaves, f.isUnreadable = false)
    (d : Document) : s.isStuck d = false := by
  rw [← s.meets_isUnreadable]
  exact meets_of_free h d

/-- A set that was read has a plan, and the stages of the plan keep exactly the documents of which
the set holds, in their order. They are refused only if some document meets a pattern that is
unreadable without regard to case before it is decided; where all patterns are readable, no
document does. -/
theorem plan_selects {v : Json} {s : FilterSet} (h : ofJson v = .ok s) (hk : s.HasFieldKeys) :
    ∃ plan, MatchPlan.ofFilterSet s = .ok plan ∧
      (∀ ds, Pipeline.run (Pipeline.ofStages plan.stages) ds =
        if ds.any s.isStuck then .error .malformedPattern else .ok (ds.filter s.holds)) ∧
      ((∀ f ∈ s.leaves, f.isUnreadable = false) → ∀ d, s.isStuck d = false) := by
  have hv := valid_of_ofJson h
  have hplan := MatchPlan.ofFilterSet_of_isCompilable
    (fun e he => FilterEntry.isCompilable_of_valid (hv e he))
  exact ⟨_, hplan, run_queries hv hk, isStuck_of_readable⟩

/-- Photos of more than three pages, or with any title but one. -/
def photos : Json :=
  .object [("filterSet", .array [
    .object [("key", .string "tags"), ("operation", .string "CONTAINS"),
      ("value", .string "^pho")],
    .object [("booleanOperation", .string "OR"), ("filters", .array [
      .object [("key", .string "pages"), ("operation", .string "GT"), ("value", .int 3)],
      .object [("key", .string "title"), ("operation", .string "MATCHES"),
        ("negate", .bool true), ("value", .string "draft")]])]])]

theorem plan_selects_photos :
    ∃ s plan, ofJson photos = .ok s ∧
      s.HasFieldKeys ∧ MatchPlan.ofFilterSet s = .ok plan ∧
      Pipeline.run (Pipeline.ofStages plan.stages)
        [[("tags", .string "photo"), ("title", .string "draft")],
          [("tags", .array [.string "Photo"]), ("pages", .int32 4)]] =
        .ok [[("tags", .array [.string "Photo"]), ("pages", .int32 4)]] := by
  let tags : Filter := ⟨.ofString "tags", false, .contains "^pho"⟩
  let pages : Filter := ⟨.ofString "pages", false, .compare .gt (.int 3)⟩
  let title : Filter := ⟨.ofString "title", true, .equals "draft"⟩
  let s : FilterSet := ⟨[.leaf tags, .concatenation ⟨.or, [pages, title]⟩]⟩
  let draft : Document := [("tags", .string "photo"), ("title", .string "draft")]
  let photo : Document := [("tags", .array [.string "Photo"]), ("pages", .int32 4)]
  have hread : ofJson photos = .ok s := rfl
  have hleaves : ∀ f ∈ s.leaves, f = tags ∨ f = pages ∨ f = title := by
    intro f hf
    simpa [s, leaves, FilterEntry.leaves] using hf
  have hk : s.HasFieldKeys := by
    intro f hf
    rcases hleaves f hf with rfl | rfl | rfl <;> decide +kernel
  have hreadable : ∀ f ∈ s.leaves, f.isUnreadable = false := by
    intro f hf
    rcases hleaves f hf with rfl | rfl | rfl
    · cbv
    · rfl
    · rfl
  have hdraft : s.holds draft = false := by
    have hor : FilterEntry.holds (.concatenation ⟨.or, [pages, title]⟩) draft = false := by
      decide +kernel
    simp only [s, holds, List.all_cons, List.all_nil, hor, Bool.and_false, Bool.false_and]
  have hphoto : s.holds photo = true := by
    have htags : FilterEntry.holds (.leaf ⟨.ofString "tags", false, .contains "^pho"⟩)
        [("tags", .array [.string "Photo"]), ("pages", .int32 4)] = true := by cbv
    have hor : FilterEntry.holds (.concatenation ⟨.or, [pages, title]⟩) photo = true := by
      decide +kernel
    simp only [s, holds, List.all_cons, List.all_nil, hor, Bool.and_true]
    exact htags
  obtain ⟨plan, hplan, hrun, hfree⟩ := plan_selects hread hk
  refine ⟨s, plan, hread, hk, hplan, (hrun [draft, photo]).trans ?_⟩
  simp only [List.any_cons, List.any_nil, hfree hreadable, Bool.or_false, Bool.false_eq_true,
    if_false, List.filter_cons, List.filter_nil, hdraft, hphoto, if_true]
  rfl

/-- A pattern that is small enough only with regard to case. Its set is read and has a plan, but the
plan is refused by the first document. -/
theorem plan_refuses_large_pattern :
    ∃ s plan,
      ofJson (.object [("filterSet", .array [.object [("key", .string "title"),
        ("operation", .string "CONTAINS"), ("value", .string "a\x7b250000\x7d")]])]) = .ok s ∧
      s.HasFieldKeys ∧ MatchPlan.ofFilterSet s = .ok plan ∧
      Pipeline.run (Pipeline.ofStages plan.stages) [[("title", .string "photo")]] =
        .error .malformedPattern := by
  let f : Filter := ⟨.ofString "title", false, .contains "a\x7b250000\x7d"⟩
  have hleaf : f.Valid := ⟨by decide +kernel, by rfl⟩
  have hv : FilterSet.Valid ⟨[.leaf f]⟩ := by
    intro e he
    obtain rfl := List.mem_singleton.mp he
    exact hleaf
  have hk : HasFieldKeys ⟨[.leaf f]⟩ := by
    intro g hg
    obtain rfl : g = f := List.mem_singleton.mp hg
    decide +kernel
  have hnone : f.isUnreadable = true := by cbv
  refine ⟨_, _, rfl, hk, MatchPlan.ofFilterSet_of_isCompilable ?_, (run_queries hv hk _).trans ?_⟩
  · exact fun e he => FilterEntry.isCompilable_of_valid (hv e he)
  · have hstuck : isStuck ⟨[.leaf f]⟩ [("title", .string "photo")] = true := by
      simp [isStuck, FilterEntry.isStuck, hnone]
    rw [List.any_cons, hstuck]
    rfl

end FilterSet

end DocumentStore
