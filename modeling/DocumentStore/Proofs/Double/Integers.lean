import DocumentStore.Proofs.Double.Whole

/-! Whole numbers in the order of doubles. As a double a whole number of sixty-four bits is the
nearest one of fifty-three bits, and doubles that are whole numbers are in the order of these. -/

namespace DocumentStore.Double

open Float.Model Float.Model.UnpackedFloat

/-- The whole number that a double is. Both are taken in units of the last bit that the mantissa of
a whole number can have. -/
def IsWhole : UnpackedFloat → Int → Prop
  | .zero _, a => a = 0
  | .finite s m e _, a => NormalMantissa m ∧ -52 ≤ e ∧ e ≤ 971 ∧
      s.apply ((m * 2 ^ (e + 52).toNat : Nat) : Int) = a * 2 ^ 52
  | _, _ => False

section Order

variable {m m' : Nat} {e e' : Int}

theorem compare_congr {α β : Type} [LinearOrder α] [LinearOrder β] {x y : α} {a b : β}
    (hlt : x < y ↔ a < b) (hgt : y < x ↔ b < a) : compare x y = compare a b := by
  rcases lt_trichotomy a b with h | rfl | h
  · rw [compare_lt_iff_lt.mpr h, compare_lt_iff_lt.mpr (hlt.mpr h)]
  · have heq : x = y := le_antisymm (not_lt.mp fun h => lt_irrefl a (hgt.mp h))
      (not_lt.mp fun h => lt_irrefl a (hlt.mp h))
    rw [compare_eq_iff_eq.mpr heq, compare_eq_iff_eq.mpr rfl]
  · rw [compare_gt_iff_gt.mpr h, compare_gt_iff_gt.mpr (hgt.mpr h)]

/-- The exponents of normal mantissas decide before the mantissas. -/
theorem lt_of_exponent_lt (hm : NormalMantissa m) (hm' : NormalMantissa m') (he : -52 ≤ e)
    (h : e < e') : m * 2 ^ (e + 52).toNat < m' * 2 ^ (e' + 52).toNat := by
  calc m * 2 ^ (e + 52).toNat
    _ < 2 ^ 53 * 2 ^ (e + 52).toNat := Nat.mul_lt_mul_of_pos_right hm.2 (Nat.two_pow_pos _)
    _ = 2 ^ 52 * 2 ^ ((e + 52).toNat + 1) := by
      rw [← Nat.pow_add, ← Nat.pow_add]
      congr 1
      omega
    _ ≤ m' * 2 ^ (e' + 52).toNat :=
      Nat.mul_le_mul hm'.1 (Nat.pow_le_pow_right (by decide) (by omega))

theorem compare_parts (hm : NormalMantissa m) (hm' : NormalMantissa m') (he : -52 ≤ e)
    (he' : -52 ≤ e') : (compare e e').then (compare m m') =
      compare (m * 2 ^ (e + 52).toNat) (m' * 2 ^ (e' + 52).toNat) := by
  rcases lt_trichotomy e e' with hlt | rfl | hgt
  · rw [compare_lt_iff_lt.mpr hlt, compare_lt_iff_lt.mpr (lt_of_exponent_lt hm hm' he hlt)]
    rfl
  · have hpos : 0 < 2 ^ (e + 52).toNat := Nat.two_pow_pos _
    rw [compare_eq_iff_eq.mpr rfl]
    exact compare_congr (Nat.mul_lt_mul_right hpos).symm (Nat.mul_lt_mul_right hpos).symm
  · rw [compare_gt_iff_gt.mpr hgt, compare_gt_iff_gt.mpr (lt_of_exponent_lt hm' hm he' hgt)]
    rfl

end Order

section Compare

variable {u v : UnpackedFloat} {a b : Int} {m : Nat} {e : Int} {h : 0 < m}

theorem pos_of_isWhole (hu : IsWhole (.finite .positive m e h) a) : 0 < a := by
  obtain ⟨-, -, -, hvalue⟩ := hu
  have hpos : 0 < m * 2 ^ (e + 52).toNat := Nat.mul_pos h (Nat.two_pow_pos _)
  change ((m * 2 ^ (e + 52).toNat : Nat) : Int) = _ at hvalue
  omega

theorem isWhole_negative_iff :
    IsWhole (.finite .negative m e h) a ↔ IsWhole (.finite .positive m e h) (-a) := by
  refine and_congr_right fun _ => and_congr_right fun _ => and_congr_right fun _ => ?_
  change -((m * 2 ^ (e + 52).toNat : Nat) : Int) = _ ↔ ((m * 2 ^ (e + 52).toNat : Nat) : Int) = _
  omega

theorem compare_positive {m' : Nat} {e' : Int} {h' : 0 < m'}
    (hu : IsWhole (.finite .positive m e h) a) (hv : IsWhole (.finite .positive m' e' h') b) :
    (compare e e').then (compare m m') = compare a b := by
  obtain ⟨hm, he, -, hvalue⟩ := hu
  obtain ⟨hm', he', -, hvalue'⟩ := hv
  change ((m * 2 ^ (e + 52).toNat : Nat) : Int) = _ at hvalue
  change ((m' * 2 ^ (e' + 52).toNat : Nat) : Int) = _ at hvalue'
  rw [compare_parts hm hm' he he']
  exact compare_congr (by omega) (by omega)

/-- Doubles that are whole numbers are compared as these. -/
theorem compare_whole (hu : IsWhole u a) (hv : IsWhole v b) : u.compare v = some (compare a b) := by
  cases u with
  | notANumber => cases hu
  | infinity s => cases hu
  | zero s =>
    obtain rfl : a = 0 := hu
    cases v with
    | notANumber => cases hv
    | infinity t => cases hv
    | zero t =>
      obtain rfl : b = 0 := hv
      rfl
    | finite t m e h =>
      cases t with
      | negative =>
        have hb := pos_of_isWhole (isWhole_negative_iff.mp hv)
        exact congrArg some (compare_gt_iff_gt.mpr (by omega)).symm
      | positive => exact congrArg some (compare_lt_iff_lt.mpr (pos_of_isWhole hv)).symm
  | finite s m e h =>
    cases v with
    | notANumber => cases hv
    | infinity t => cases hv
    | zero t =>
      obtain rfl : b = 0 := hv
      cases s with
      | negative =>
        have ha := pos_of_isWhole (isWhole_negative_iff.mp hu)
        exact congrArg some (compare_lt_iff_lt.mpr (by omega)).symm
      | positive => exact congrArg some (compare_gt_iff_gt.mpr (pos_of_isWhole hu)).symm
    | finite t m' e' h' =>
      cases s <;> cases t
      case negative.negative =>
        have horder := compare_positive (isWhole_negative_iff.mp hu) (isWhole_negative_iff.mp hv)
        refine congrArg some ((congrArg Ordering.swap horder).trans ?_)
        rw [Int.compare_swap]
        exact compare_congr (by omega) (by omega)
      case negative.positive =>
        have ha := pos_of_isWhole (isWhole_negative_iff.mp hu)
        have hb := pos_of_isWhole hv
        exact congrArg some (compare_lt_iff_lt.mpr (by omega)).symm
      case positive.negative =>
        have ha := pos_of_isWhole hu
        have hb := pos_of_isWhole (isWhole_negative_iff.mp hv)
        exact congrArg some (compare_gt_iff_gt.mpr (by omega)).symm
      case positive.positive => exact congrArg some (compare_positive hu hv)

end Compare

theorem isWhole_neg {x : Float} {a : Int} (hx : IsWhole x.toModel.unpack a) :
    IsWhole x.neg.toModel.unpack (-a) := by
  change IsWhole (Float.Model.pack x.toModel.unpack.neg).unpack (-a)
  cases hu : x.toModel.unpack with
  | notANumber =>
    rw [hu] at hx
    cases hx
  | infinity s =>
    rw [hu] at hx
    cases hx
  | zero s =>
    rw [hu] at hx
    obtain rfl : a = 0 := hx
    cases s <;> rfl
  | finite s m e h =>
    rw [hu] at hx
    obtain ⟨hm, he, hbound, -⟩ := id hx
    change IsWhole (Float.Model.pack (.finite (-s) m e h)).unpack (-a)
    rw [unpack_pack hm (by omega) hbound]
    cases s with
    | negative => exact isWhole_negative_iff.mp hx
    | positive => exact isWhole_negative_iff.mpr ((neg_neg a).symm ▸ hx)

theorem isWhole_ofNat {n : Nat} (h : n < 2 ^ 64) :
    IsWhole (Float.ofNat n).toModel.unpack (nearest n) := by
  rcases Nat.eq_zero_or_pos n with rfl | hpos
  · rw [show (Float.ofNat 0).toModel.unpack = .zero .positive from zero_unpack,
      nearest_of_le (Nat.zero_le _)]
    rfl
  · rcases Nat.lt_or_ge n (2 ^ 53) with hs | hl
    · obtain ⟨j, hm, hpos', hx⟩ := hasParts_ofNat_small hpos hs
      have hj : j ≤ 52 := by
        have hlt : 2 ^ j < 2 ^ 53 := (Nat.le_mul_of_pos_left _ hpos).trans_lt hm.2
        exact Nat.le_of_lt_succ ((Nat.pow_lt_pow_iff_right (by decide)).mp hlt)
      have hexp : j + (-(j : Int) + 52).toNat = 52 := by omega
      rw [hx, nearest_of_le hs.le]
      refine ⟨hm, by omega, by omega, ?_⟩
      change ((n * 2 ^ j * 2 ^ (-(j : Int) + 52).toNat : Nat) : Int) = _
      rw [Nat.mul_assoc, ← Nat.pow_add, hexp]
      push_cast
      rfl
    · obtain ⟨m, e, ⟨hm, hpos', hx⟩, he, hbound, hvalue⟩ := hasParts_ofNat_large hl h
      have hexp : (e + 52).toNat = e.toNat + 52 := by omega
      rw [hx]
      refine ⟨hm, by omega, hbound, ?_⟩
      change ((m * 2 ^ (e + 52).toNat : Nat) : Int) = _
      rw [hexp, Nat.pow_add, ← Nat.mul_assoc, hvalue]
      push_cast
      rfl

theorem isWhole_ofInt {a : Int} (h : a.natAbs < 2 ^ 64) :
    IsWhole (Float.ofInt a).toModel.unpack (nearestInt a) := by
  cases a with
  | ofNat n => exact isWhole_ofNat h
  | negSucc n => exact isWhole_neg (isWhole_ofNat h)

/-- Whole numbers of sixty-four bits are compared as doubles in the order of what they are rounded
to. -/
theorem order?_ofInt {a b : Int} (ha : a.natAbs < 2 ^ 64) (hb : b.natAbs < 2 ^ 64) :
    order? (Float.ofInt a) (Float.ofInt b) = some (compare (nearestInt a) (nearestInt b)) :=
  compare_whole (isWhole_ofInt ha) (isWhole_ofInt hb)

theorem ofInt_beq_self {a : Int} (h : a.natAbs < 2 ^ 64) :
    (Float.ofInt a == Float.ofInt a) = true := by
  rw [beq_iff, order?_ofInt h h, compare_eq_iff_eq.mpr rfl]

end DocumentStore.Double
