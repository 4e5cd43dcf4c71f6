import DocumentStore.Proofs.Double.Integers
import DocumentStore.Proofs.Filter.Evaluation

/-! Whole numbers in filters. They are kept as they are until they are compared, and then both sides
are rounded to doubles. A comparison is that of the rounded numbers, so that only different numbers
that are rounded to the same one are confused. -/

namespace DocumentStore

/-- The comparison of whole numbers. -/
def Comparison.relates : Comparison → Int → Int → Bool
  | eq, a, b => a = b
  | gt, a, b => b < a
  | gte, a, b => b ≤ a
  | lt, a, b => a < b
  | lte, a, b => a ≤ b

namespace Comparison

variable {a b : Int}

theorem accepts_compare (c : Comparison) (a b : Int) : c.accepts (compare a b) = c.relates a b := by
  rcases lt_trichotomy a b with h | rfl | h
  · rw [compare_lt_iff_lt.mpr h]
    cases c <;> simp +decide [accepts, relates, h, h.le, h.ne, h.not_gt]
  · rw [compare_eq_iff_eq.mpr rfl]
    cases c <;> simp [accepts, relates]
  · rw [compare_gt_iff_gt.mpr h]
    cases c <;> simp +decide [accepts, relates, h, h.le, h.ne', h.not_gt]

theorem holds_ofInt (c : Comparison) (ha : a.natAbs < 2 ^ 64) (hb : b.natAbs < 2 ^ 64) :
    c.holds (Float.ofInt a) (Float.ofInt b) =
      c.relates (Double.nearestInt a) (Double.nearestInt b) := by
  rw [← c.accepts_order, Double.order?_ofInt ha hb, Option.any_some, c.accepts_compare]

/-- Rounding keeps the order, and changes no comparison unless two numbers become one. -/
theorem relates_nearest_iff : (∀ c : Comparison,
    c.relates (Double.nearestInt a) (Double.nearestInt b) = c.relates a b) ↔
      a = b ∨ Double.nearestInt a ≠ Double.nearestInt b := by
  constructor
  · intro h
    have heq := h .eq
    simp only [relates, decide_eq_decide] at heq
    exact or_iff_not_imp_right.mpr fun hne => heq.mp (not_not.mp hne)
  · rintro (rfl | hne) c
    · cases c <;> simp [relates]
    · have hab : a < b → Double.nearestInt a ≤ Double.nearestInt b :=
        fun h => Double.nearestInt_mono h.le
      have hba : b < a → Double.nearestInt b ≤ Double.nearestInt a :=
        fun h => Double.nearestInt_mono h.le
      have hne' : a ≠ b := fun h => hne (congrArg _ h)
      cases c <;> simp only [relates, decide_eq_decide] <;> omega

theorem relates_nearest_of_short (h : a.natAbs < 2 ^ 53 ∨ b.natAbs < 2 ^ 53) (c : Comparison) :
    c.relates (Double.nearestInt a) (Double.nearestInt b) = c.relates a b := by
  refine relates_nearest_iff.mpr (or_iff_not_imp_right.mpr fun heq => ?_) c
  rcases h with ha | hb
  · exact Double.eq_of_nearestInt_eq ha (not_not.mp heq)
  · exact (Double.eq_of_nearestInt_eq hb (not_not.mp heq).symm).symm

end Comparison

theorem natAbs_toInt_lt (n : Int64) : n.toInt.natAbs < 2 ^ 64 := by
  have hlow := n.le_toInt
  have hhigh := n.toInt_lt
  omega

namespace Value

theorem double_of_asInt? {v : Value} {m : Int} (h : v.asInt? = some m) :
    v.asDouble? = some (Float.ofInt m) ∧ m.natAbs < 2 ^ 64 := by
  cases v with
  | int32 n =>
    obtain rfl := Option.some.inj h
    have hlow := n.le_toInt
    have hhigh := n.toInt_lt
    exact ⟨rfl, by omega⟩
  | int64 n =>
    obtain rfl := Option.some.inj h
    exact ⟨rfl, natAbs_toInt_lt n⟩
  | _ => cases h

end Value

namespace Filter

variable {key : FieldPath} {d : Document} {v : Value} {m : Int}

theorem matches_compare (c : Comparison) (n : Int64) (hk : isOperatorName key.text = false)
    (hv : d.reached key = [v]) (hm : v.asInt? = some m) :
    ∃ query, (Filter.new key (.compare c (.int n))).toQuery = .ok query ∧ d.matches query =
      .ok (c.relates (Double.nearestInt m) (Double.nearestInt n.toInt)) := by
  obtain ⟨query, hquery, hmatches⟩ := matches_comparison c (.int n) hk
  obtain ⟨hdouble, hbound⟩ := Value.double_of_asInt? hm
  refine ⟨query, hquery, (hmatches d).trans (congrArg Except.ok ?_)⟩
  rw [hv, List.any_cons, List.any_nil, Bool.or_false, Operation.accepts, hdouble, Option.any_some]
  exact c.holds_ofInt hbound (natAbs_toInt_lt n)

/-- A comparison with a whole number answers for the rounded numbers. All five are right exactly if
the two numbers are the same or are rounded to different ones, and so they are if one of them has at
most fifty-three bits. -/
theorem integer_comparisons (n : Int64) (hk : isOperatorName key.text = false)
    (hv : d.reached key = [v]) (hm : v.asInt? = some m) :
    ∃ answer : Comparison → Bool,
      (∀ c, ∃ query, (Filter.new key (.compare c (.int n))).toQuery = .ok query ∧
        d.matches query = .ok (answer c)) ∧
      (∀ c, answer c = c.relates (Double.nearestInt m) (Double.nearestInt n.toInt)) ∧
      ((∀ c, answer c = c.relates m n.toInt) ↔
        m = n.toInt ∨ Double.nearestInt m ≠ Double.nearestInt n.toInt) ∧
      (m.natAbs < 2 ^ 53 ∨ n.toInt.natAbs < 2 ^ 53 → ∀ c, answer c = c.relates m n.toInt) :=
  ⟨fun c => c.relates (Double.nearestInt m) (Double.nearestInt n.toInt),
    fun c => matches_compare c n hk hv hm, fun _ => rfl, Comparison.relates_nearest_iff,
    Comparison.relates_nearest_of_short⟩

theorem reached_count (n : Int64) :
    Document.reached [("count", .int64 n)] (.ofString "count") = [.int64 n] := by
  have hsegments : (FieldPath.ofString "count").segments = ["count"] := by decide +kernel
  rw [Document.reached, hsegments]
  rfl

/-- The largest number of sixty-four bits, and the largest that is rounded below it. -/
theorem integer_comparisons_largest :
    let d : Document := [("count", .int64 9223372036854775807)]
    isOperatorName (FieldPath.ofString "count").text = false ∧
      d.reached (.ofString "count") = [.int64 9223372036854775807] ∧
      ∃ query, (Filter.new (.ofString "count") (.compare .gt (.int 9223372036854775295))).toQuery =
        .ok query ∧ d.matches query = .ok true := by
  intro d
  have hkey : isOperatorName (FieldPath.ofString "count").text = false := by decide +kernel
  have hreached := reached_count 9223372036854775807
  obtain ⟨answer, hanswer, hnearest, -⟩ :=
    integer_comparisons 9223372036854775295 hkey hreached rfl
  obtain ⟨query, hquery, hmatches⟩ := hanswer .gt
  refine ⟨hkey, hreached, query, hquery, hmatches.trans (congrArg Except.ok ?_)⟩
  rw [hnearest]
  decide +kernel

/-- A number of fifty-four bits equals the even one before it. -/
theorem integer_comparison_rounds :
    let d : Document := [("count", .int64 9007199254740992)]
    isOperatorName (FieldPath.ofString "count").text = false ∧
      d.reached (.ofString "count") = [.int64 9007199254740992] ∧
      (9007199254740992 : Int64).toInt ≠ (9007199254740993 : Int64).toInt ∧
      ∃ query, (Filter.new (.ofString "count") (.compare .eq (.int 9007199254740993))).toQuery =
        .ok query ∧ d.matches query = .ok true := by
  intro d
  have hkey : isOperatorName (FieldPath.ofString "count").text = false := by decide +kernel
  have hreached := reached_count 9007199254740992
  obtain ⟨query, hquery, hmatches⟩ :=
    matches_compare .eq 9007199254740993 hkey hreached rfl
  refine ⟨hkey, hreached, by decide, query, hquery, hmatches.trans (congrArg Except.ok ?_)⟩
  decide +kernel

end Filter

end DocumentStore
