import DocumentStore.Proofs.Query.Found

/-! The comparisons of a filter with a number. A comparison looks for one value that is as it says,
so that one which also allows the equal number is the disjunction of the strict one and of equality.
Of the three others exactly one holds for one number, for which both sides have to be numbers. -/

namespace DocumentStore

namespace Comparison

theorem accepts_gte (o : Ordering) : gte.accepts o = (gt.accepts o || eq.accepts o) := by
  cases o <;> rfl

theorem accepts_lte (o : Ordering) : lte.accepts o = (lt.accepts o || eq.accepts o) := by
  cases o <;> rfl

/-- Also where a side is no number, and nothing holds. -/
theorem holds_or {c strict : Comparison}
    (h : ∀ o, c.accepts o = (strict.accepts o || eq.accepts o)) (x y : Float) :
    c.holds x y = (strict.holds x y || eq.holds x y) := by
  simp only [← accepts_order]
  cases Double.order? x y with
  | none => rfl
  | some o => exact h o

/-- Each order is one strict comparison or equality. -/
theorem existsUnique_accepts (o : Ordering) :
    ∃! c : Comparison, c ∈ [lt, eq, gt] ∧ c.accepts o = true := by
  cases o with
  | lt => exact ⟨lt, by decide, fun c => by cases c <;> simp +decide⟩
  | eq => exact ⟨eq, by decide, fun c => by cases c <;> simp +decide⟩
  | gt => exact ⟨gt, by decide, fun c => by cases c <;> simp +decide⟩

theorem existsUnique_holds {x y : Float} (hx : x.isNaN = false) (hy : y.isNaN = false) :
    ∃! c : Comparison, c ∈ [lt, eq, gt] ∧ c.holds x y = true := by
  have hne : Double.order? x y ≠ none := by
    rw [ne_eq, Double.order?_eq_none_iff, hx, hy]
    decide
  obtain ⟨o, ho⟩ := Option.ne_none_iff_exists'.mp hne
  simp only [← accepts_order, ho, Option.any_some]
  exact existsUnique_accepts o

end Comparison

theorem Value.isNaN_of_isNumber {v : Value} {x : Float} (hv : v.IsNumber)
    (hx : v.asDouble? = some x) : x.isNaN = false := by
  have hint {m : Int} (h : v.asInt? = some m) : x.isNaN = false := by
    obtain ⟨hdouble, hm⟩ := double_of_asInt? h
    obtain rfl := Option.some.inj (hdouble.symm.trans hx)
    exact Double.isNaN_of_beq_self (Double.ofInt_beq_self hm)
  cases v with
  | double y =>
    obtain rfl := Option.some.inj hx
    exact hv
  | int32 n => exact hint rfl
  | int64 n => exact hint rfl
  | _ => cases hx

theorem Number.asDouble?_toValue (n : Number) : n.toValue.asDouble? = some n.toFloat := by
  cases n <;> rfl

namespace Operation

theorem any_compare_or {c strict : Comparison}
    (h : ∀ o, c.accepts o = (strict.accepts o || Comparison.eq.accepts o)) (n : Number)
    (values : List Value) :
    values.any (compare c n).accepts =
      (values.any (compare strict n).accepts || values.any (compare .eq n).accepts) := by
  have hor (v : Value) : (compare c n).accepts v =
      ((compare strict n).accepts v || (compare .eq n).accepts v) := by
    simp only [accepts]
    cases v.asDouble? with
    | none => rfl
    | some x => exact Comparison.holds_or h x n.toFloat
  induction values with
  | nil => rfl
  | cons v values ih => simp only [List.any_cons, hor, ih, Bool.or_assoc, Bool.or_left_comm]

theorem existsUnique_compare {v : Value} {n : Number} (hnumber : v.asDouble?.isSome = true)
    (hv : v.IsNumber) (hn : n.toValue.IsNumber) :
    ∃! c : Comparison, c ∈ [.lt, .eq, .gt] ∧ [v].any (compare c n).accepts = true := by
  obtain ⟨x, hx⟩ := Option.isSome_iff_exists.mp hnumber
  have hholds (c : Comparison) : [v].any (compare c n).accepts = c.holds x n.toFloat := by
    rw [List.any_cons, List.any_nil, Bool.or_false, accepts, hx, Option.any_some]
  simp only [hholds]
  exact Comparison.existsUnique_holds (Value.isNaN_of_isNumber hv hx)
    (Value.isNaN_of_isNumber hn n.asDouble?_toValue)

end Operation

namespace Filter

variable {key : FieldPath}

/-- Comparisons with one number are never refused. At least is greater or equal and at most is less
or equal, whatever is reached. A whole number or a double that is reached alone is less than the
operand, equal to it or greater, and only one of these, unless a side is no number. -/
theorem numeric_comparisons_coherent (n : Number) (hk : isOperatorName key.text = false) :
    ∃ query : Comparison → Document,
      (∀ c, (Filter.new key (.compare c n)).toQuery = .ok (query c)) ∧
      ∀ d : Document, ∃ answer : Comparison → Bool,
        (∀ c, d.matches (query c) = .ok (answer c)) ∧
        answer .gte = (answer .gt || answer .eq) ∧
        answer .lte = (answer .lt || answer .eq) ∧
        ∀ v, d.reached key = [v] → v.asDouble?.isSome = true → v.IsNumber → n.toValue.IsNumber →
          ∃! c : Comparison, c ∈ [.lt, .eq, .gt] ∧ answer c = true := by
  choose query hquery hmatches using fun c => matches_comparison c n hk
  refine ⟨query, hquery, fun d => ⟨fun c => (d.reached key).any (Operation.compare c n).accepts,
    fun c => hmatches c d, ?_, ?_, ?_⟩⟩
  · exact Operation.any_compare_or Comparison.accepts_gte n _
  · exact Operation.any_compare_or Comparison.accepts_lte n _
  · intro v hv hnumber hvalue hoperand
    simp only [hv]
    exact Operation.existsUnique_compare hnumber hvalue hoperand

/-- A whole number and an operand that is none. -/
theorem numeric_comparisons_coherent_size :
    let d : Document := [("size", .int32 3)]
    ∃ query : Comparison → Document,
      (∀ c, (Filter.new (.ofString "size") (.compare c (.float 2.5))).toQuery = .ok (query c)) ∧
      d.matches (query .gt) = .ok true ∧ d.matches (query .gte) = .ok true ∧
      ∃! c : Comparison, c ∈ [.lt, .eq, .gt] ∧ d.matches (query c) = .ok true := by
  intro d
  have hkey : isOperatorName (FieldPath.ofString "size").text = false := by decide +kernel
  have hsegments : (FieldPath.ofString "size").segments = ["size"] := by decide +kernel
  have hreached : d.reached (.ofString "size") = [.int32 3] := by
    rw [Document.reached, hsegments]
    rfl
  have hoperand : (Number.float 2.5).toValue.IsNumber :=
    show (2.5 : Float).isNaN = false by decide +kernel
  obtain ⟨query, hquery, hanswers⟩ := numeric_comparisons_coherent (.float 2.5) hkey
  obtain ⟨answer, hanswer, hgte, -, hone⟩ := hanswers d
  have hgreater : (d.matches (query .gt)).toOption = some true := by
    rw [← Except.ok.inj (hquery .gt)]
    decide +kernel
  have hgt : answer .gt = true := by
    rw [hanswer] at hgreater
    exact Option.some.inj hgreater
  refine ⟨query, hquery, ?_⟩
  simp only [hanswer, Except.ok.injEq]
  exact ⟨hgt, by rw [hgte, hgt, Bool.true_or], hone _ hreached rfl trivial hoperand⟩

end Filter

end DocumentStore
