import Mathlib
import DocumentStore.Query.Order

/-! Doubles in order. The relations on doubles are readings of one comparison, which is reversed
when its sides are swapped and has no answer beside what is no number. A quotient by a positive
double keeps its sign. -/

namespace DocumentStore.Double

open Float.Model Float.Model.UnpackedFloat

def order? (x y : Float) : Option Ordering :=
  x.toModel.unpack.compare y.toModel.unpack

theorem lt_iff {x y : Float} : x < y ↔ order? x y = some .lt := by
  change decide (x.toModel < y.toModel) = true ↔ _
  rw [decide_eq_true_iff]
  change (order? x y == some .lt) = true ↔ _
  rw [beq_iff_eq]

theorem le_iff {x y : Float} : x ≤ y ↔ order? x y = some .lt ∨ order? x y = some .eq := by
  change decide (x.toModel ≤ y.toModel) = true ↔ _
  rw [decide_eq_true_iff]
  change (order? x y).any (·.isLE) = true ↔ _
  cases order? x y with
  | none => simp
  | some o => cases o <;> simp

theorem beq_iff {x y : Float} : (x == y) = true ↔ order? x y = some .eq := by
  change (order? x y == some .eq) = true ↔ _
  rw [beq_iff_eq]

theorem compare_swap (a b : UnpackedFloat) :
    b.compare a = (a.compare b).map Ordering.swap := by
  have hthen (e₁ e₂ : Int) (m₁ m₂ : Nat) :
      (compare e₂ e₁).then (compare m₂ m₁) = ((compare e₁ e₂).then (compare m₁ m₂)).swap := by
    rw [Ordering.swap_then, Int.compare_swap, Nat.compare_swap]
  cases a with
  | notANumber => cases b <;> rfl
  | infinity s =>
    cases b with
    | infinity t => cases s <;> cases t <;> rfl
    | finite t m e h => cases s <;> cases t <;> rfl
    | _ => cases s <;> rfl
  | zero s =>
    cases b with
    | infinity t => cases t <;> rfl
    | finite t m e h => cases t <;> rfl
    | _ => rfl
  | finite s m e h =>
    cases b with
    | infinity t => cases s <;> cases t <;> rfl
    | notANumber => rfl
    | zero t => cases s <;> rfl
    | finite t m' e' h' =>
      have hsome := congrArg some (hthen e e' m m')
      cases s <;> cases t
      · exact congrArg (Option.map Ordering.swap) hsome
      · rfl
      · rfl
      · exact hsome

theorem order?_swap (x y : Float) : order? y x = (order? x y).map Ordering.swap :=
  compare_swap _ _

theorem compare_self {u : UnpackedFloat} (h : u.isNaN = false) : u.compare u = some .eq := by
  have hthen (e : Int) (m : Nat) : (compare e e).then (compare m m) = .eq := by
    rw [compare_eq_iff_eq.mpr rfl, compare_eq_iff_eq.mpr rfl]
    rfl
  cases u with
  | notANumber => cases h
  | zero s => rfl
  | infinity s => cases s <;> rfl
  | finite s m e hm =>
    cases s with
    | negative => exact congrArg (fun o => some (Ordering.swap o)) (hthen e m)
    | positive => exact congrArg some (hthen e m)

theorem beq_self {x : Float} (h : x.isNaN = false) : (x == x) = true :=
  beq_iff.mpr (compare_self h)

/-- Only what is no number is in no order. -/
theorem compare_eq_none_iff {u v : UnpackedFloat} :
    u.compare v = none ↔ u.isNaN = true ∨ v.isNaN = true := by
  fun_cases UnpackedFloat.compare u v <;> simp [UnpackedFloat.isNaN]

theorem order?_eq_none_iff {x y : Float} :
    order? x y = none ↔ x.isNaN = true ∨ y.isNaN = true :=
  compare_eq_none_iff

theorem isNaN_of_beq_self {x : Float} (h : (x == x) = true) : x.isNaN = false := by
  have hsome := beq_iff.mp h
  cases hx : x.isNaN with
  | false => rfl
  | true =>
    rw [order?_eq_none_iff.mpr (.inl hx)] at hsome
    cases hsome

theorem orderOfDoubles_eq (x y : Float) : Value.orderOfDoubles x y = order? x y := by
  have hgt : y < x ↔ order? x y = some .gt := by
    rw [lt_iff, order?_swap]
    cases order? x y with
    | none => simp
    | some o => cases o <;> simp
  simp only [Value.orderOfDoubles, lt_iff (x := x), hgt, beq_iff]
  cases order? x y with
  | none => simp
  | some o => cases o <;> simp

theorem zero_unpack : (Float.toModel 0).unpack = .zero .positive := rfl

def IsNonneg : UnpackedFloat → Prop
  | .zero _ => True
  | .infinity .positive => True
  | .finite .positive _ _ _ => True
  | _ => False

theorem nonneg_iff {x : Float} : 0 ≤ x ↔ IsNonneg x.toModel.unpack := by
  rw [le_iff, order?, zero_unpack]
  cases x.toModel.unpack with
  | infinity s => cases s <;> simp [UnpackedFloat.compare, IsNonneg]
  | finite s m e h => cases s <;> simp [UnpackedFloat.compare, IsNonneg]
  | _ => simp [UnpackedFloat.compare, IsNonneg]

theorem nonneg_iff_not_neg {x : Float} (h : x.isFinite = true) : 0 ≤ x ↔ ¬ x < 0 := by
  change x.toModel.unpack.isFinite = true at h
  rw [nonneg_iff, lt_iff, order?, zero_unpack]
  cases hx : x.toModel.unpack with
  | zero s => simp [UnpackedFloat.compare, IsNonneg]
  | finite s m e hm => cases s <;> simp [UnpackedFloat.compare, IsNonneg]
  | _ => rw [hx] at h; cases h

/-- What is packed with a positive sign is unpacked as no less than zero, unless it has the
exponent of what is no number. -/
theorem isNonneg_packComponents {spec : Format} {exponent mantissa}
    (h : exponent = -1#_ → mantissa = 0#_) :
    IsNonneg (UnpackedFloat.unpack spec (packComponents spec .positive exponent mantissa)) := by
  simp only [UnpackedFloat.unpack, unpackMantissa_packComponents, unpackExponent_packComponents,
    unpackSign_packComponents]
  have hs : Sign.ofBitVec (Sign.toBitVec .positive) = .positive := rfl
  by_cases he : exponent = -1#_
  · rw [if_pos he, if_pos (h he), hs]
    trivial
  · rw [if_neg he, hs]
    split
    · split <;> trivial
    · trivial

theorem isNonneg_pack {u : UnpackedFloat} (h : IsNonneg u) :
    IsNonneg (Float.Model.pack u).unpack := by
  change IsNonneg (UnpackedFloat.unpack Format.binary64 (UnpackedFloat.pack Format.binary64 u))
  cases u with
  | notANumber => cases h
  | zero s => cases s <;> trivial
  | infinity s =>
    cases s with
    | negative => cases h
    | positive => exact isNonneg_packComponents (fun _ => rfl)
  | finite s m e hm =>
    cases s with
    | negative => cases h
    | positive =>
      simp only [UnpackedFloat.pack]
      split
      · exact isNonneg_packComponents (fun _ => rfl)
      · split
        · refine isNonneg_packComponents (fun he => ?_)
          have hn := congrArg BitVec.toNat he
          simp only [BitVec.toNat_ofNat, BitVec.toNat_neg] at hn
          omega
        · refine isNonneg_packComponents (fun he => ?_)
          have hn := congrArg BitVec.toNat he
          simp at hn

theorem isNonneg_roundWithAccuracy (spec : Format) (m : Nat) (e : Int) (accuracy : Accuracy) :
    IsNonneg (roundWithAccuracy spec .positive m e accuracy) := by
  unfold roundWithAccuracy
  dsimp only
  split <;> trivial

theorem nonneg_div {x y : Float} (hx : 0 ≤ x) (hf : x.isFinite = true)
    (hy : ∃ m e h, y.toModel.unpack = .finite .positive m e h) : 0 ≤ x / y := by
  obtain ⟨m, e, h, hy⟩ := hy
  change x.toModel.unpack.isFinite = true at hf
  rw [nonneg_iff] at hx ⊢
  change IsNonneg (Float.Model.pack (UnpackedFloat.div Format.binary64 x.toModel.unpack
    y.toModel.unpack)).unpack
  refine isNonneg_pack ?_
  rw [hy]
  cases hu : x.toModel.unpack with
  | notANumber => rw [hu] at hx; cases hx
  | infinity s => rw [hu] at hf; cases hf
  | zero s => trivial
  | finite s m' e' h' =>
    cases s with
    | negative => rw [hu] at hx; cases hx
    | positive => exact isNonneg_roundWithAccuracy _ _ _ _

end DocumentStore.Double
