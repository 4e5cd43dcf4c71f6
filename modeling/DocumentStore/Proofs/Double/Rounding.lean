import DocumentStore.Proofs.Double

/-! Rounding to fifty-three bits. A quotient is rounded to the nearest whole number, and to the even
one of two that are equally near. Whole numbers are rounded at the last of the bits that a double
keeps of them, which changes no short one and never the order of two. -/

namespace DocumentStore.Double

open Float.Model Float.Model.UnpackedFloat

def divNearest (m d : Nat) : Nat :=
  if d < 2 * (m % d) ∨ 2 * (m % d) = d ∧ m / d % 2 = 1 then m / d + 1 else m / d

theorem divNearest_bounds (m d : Nat) : m / d ≤ divNearest m d ∧ divNearest m d ≤ m / d + 1 := by
  unfold divNearest
  split <;> omega

theorem divNearest_one (m : Nat) : divNearest m 1 = m := by
  simp [divNearest, Nat.mod_one]

theorem divNearest_mul {k : Nat} (m d : Nat) (hk : 0 < k) :
    divNearest (m * k) (d * k) = divNearest m d := by
  have hlt : d * k < 2 * (m % d * k) ↔ d < 2 * (m % d) := by
    rw [← Nat.mul_assoc, Nat.mul_lt_mul_right hk]
  have heq : 2 * (m % d * k) = d * k ↔ 2 * (m % d) = d := by
    rw [← Nat.mul_assoc, Nat.mul_left_inj hk.ne']
  simp only [divNearest, Nat.mul_mod_mul_right, Nat.mul_div_mul_right _ _ hk, hlt, heq]

theorem divNearest_mono {m m' : Nat} (d : Nat) (h : m ≤ m') : divNearest m d ≤ divNearest m' d := by
  have hdiv : m / d ≤ m' / d := Nat.div_le_div_right h
  obtain ⟨-, hup⟩ := divNearest_bounds m d
  obtain ⟨hdown, -⟩ := divNearest_bounds m' d
  rcases hdiv.lt_or_eq with hlt | heq
  · omega
  · have hm := Nat.div_add_mod m d
    have hm' := Nat.div_add_mod m' d
    rw [heq] at hm
    unfold divNearest
    rw [heq]
    split <;> split <;> omega

section Shift

variable (m k : Nat)

/-- After a shift a mantissa remembers the last bit that it has lost and whether one before it was
set. -/
theorem shiftRight_succ : ExtendedMantissa.mk m false false >>> (k + 1) =
    ⟨m / 2 ^ (k + 1), m / 2 ^ k % 2 != 0, m % 2 ^ k != 0⟩ := by
  induction k with
  | zero => simp [HShiftRight.hShiftRight, Nat.repeat, ExtendedMantissa.shiftRightOne, Nat.mod_one]
  | succ k ih =>
    change ExtendedMantissa.shiftRightOne (ExtendedMantissa.mk m false false >>> (k + 1)) = _
    have hlost : ((m / 2 ^ k % 2 != 0) || (m % 2 ^ k != 0)) = (m % 2 ^ (k + 1) != 0) := by
      rw [Nat.mod_pow_succ]
      rcases Nat.mod_two_eq_zero_or_one (m / 2 ^ k) with hbit | hbit <;> simp [hbit]
    simp only [ih, ExtendedMantissa.shiftRightOne, hlost, Nat.div_div_eq_div_mul, ← Nat.pow_succ]

/-- What it remembers is enough to round it. -/
theorem roundedMantissa_shiftRight :
    (ExtendedMantissa.mk m false false >>> k).roundedMantissa = divNearest m (2 ^ k) := by
  cases k with
  | zero => exact (divNearest_one m).symm
  | succ k =>
    have hrest : m % 2 ^ (k + 1) = m % 2 ^ k + 2 ^ k * (m / 2 ^ k % 2) := Nat.mod_pow_succ
    have hlow : m % 2 ^ k < 2 ^ k := Nat.mod_lt m (Nat.two_pow_pos k)
    rw [shiftRight_succ, divNearest, hrest, Nat.pow_succ]
    generalize m / (2 ^ k * 2) = q
    rcases Nat.mod_two_eq_zero_or_one (m / 2 ^ k) with hbit | hbit
    · rw [hbit, if_neg (by omega)]
      cases hs : m % 2 ^ k != 0 <;> rfl
    · rw [hbit]
      cases hs : m % 2 ^ k with
      | zero =>
        have heven : q + q % 2 = if q % 2 = 1 then q + 1 else q := by split <;> omega
        simpa [ExtendedMantissa.roundedMantissa, ExtendedMantissa.accuracy,
          Accuracy.roundToNearestEven, Nat.mul_comm] using heven
      | succ r =>
        rw [if_pos (by omega)]
        rfl

end Shift

/-- How many of its last bits a whole number loses as a double. -/
def lostBits (n : Nat) : Nat :=
  n.log2 - 52

/-- A whole number rounded to its first fifty-three bits. -/
def nearest (n : Nat) : Nat :=
  divNearest n (2 ^ lostBits n) * 2 ^ lostBits n

theorem nearest_of_le {n : Nat} (h : n ≤ 2 ^ 53) : nearest n = n := by
  rcases h.lt_or_eq with hlt | rfl
  · have hlog : n.log2 ≤ 52 := by
      rcases Nat.eq_zero_or_pos n with rfl | hpos
      · decide
      · exact Nat.le_of_lt_succ ((Nat.log2_lt hpos.ne').mpr hlt)
    have hlost : lostBits n = 0 := Nat.sub_eq_zero_of_le hlog
    rw [nearest, hlost, Nat.pow_zero, divNearest_one, Nat.mul_one]
  · decide +kernel

/-- Rounding stays between the powers of two around a number. -/
theorem nearest_bounds {n : Nat} (hn : n ≠ 0) :
    2 ^ n.log2 ≤ nearest n ∧ nearest n ≤ 2 ^ (n.log2 + 1) := by
  obtain ⟨hl, hu⟩ := (Nat.log2_eq_iff hn).mp rfl
  obtain ⟨hdown, hup⟩ := divNearest_bounds n (2 ^ lostBits n)
  have hpos : 0 < 2 ^ lostBits n := Nat.two_pow_pos _
  have hlog : n.log2 = (n.log2 - lostBits n) + lostBits n := by
    unfold lostBits
    omega
  have hlog' : n.log2 + 1 = (n.log2 + 1 - lostBits n) + lostBits n := by omega
  constructor
  · rw [hlog, Nat.pow_add] at hl ⊢
    exact Nat.mul_le_mul_right _ (((Nat.le_div_iff_mul_le hpos).mpr hl).trans hdown)
  · rw [hlog', Nat.pow_add] at hu ⊢
    exact Nat.mul_le_mul_right _ (hup.trans ((Nat.div_lt_iff_lt_mul hpos).mpr hu))

theorem nearest_mono {m n : Nat} (h : m ≤ n) : nearest m ≤ nearest n := by
  rcases Nat.eq_zero_or_pos m with rfl | hm
  · rw [nearest_of_le (Nat.zero_le _)]
    exact Nat.zero_le _
  · have hn : n ≠ 0 := (hm.trans_le h).ne'
    have hlog : m.log2 ≤ n.log2 := (Nat.le_log2 hn).mpr ((Nat.log2_self_le hm.ne').trans h)
    rcases hlog.lt_or_eq with hlt | heq
    · calc nearest m
        _ ≤ 2 ^ (m.log2 + 1) := (nearest_bounds hm.ne').2
        _ ≤ 2 ^ n.log2 := Nat.pow_le_pow_right (by decide) hlt
        _ ≤ nearest n := (nearest_bounds hn).1
    · have hlost : lostBits m = lostBits n := congrArg (· - 52) heq
      rw [nearest, nearest, hlost]
      exact Nat.mul_le_mul_right _ (divNearest_mono _ h)

/-- Numbers on both sides of zero are rounded alike. -/
def nearestInt : Int → Int
  | .ofNat n => nearest n
  | .negSucc n => -nearest (n + 1)

theorem nearestInt_natCast (n : Nat) : nearestInt n = nearest n := rfl

theorem nearestInt_neg (n : Nat) : nearestInt (-n) = -nearest n := by
  cases n with
  | zero => rfl
  | succ n => rfl

theorem nearestInt_of_le {a : Int} (h : a.natAbs ≤ 2 ^ 53) : nearestInt a = a := by
  obtain ⟨n, rfl | rfl⟩ := a.eq_nat_or_neg
  · rw [nearestInt_natCast, nearest_of_le (by simpa using h)]
  · rw [nearestInt_neg, nearest_of_le (by simpa using h)]

theorem nearestInt_mono {a b : Int} (h : a ≤ b) : nearestInt a ≤ nearestInt b := by
  obtain ⟨m, rfl | rfl⟩ := a.eq_nat_or_neg <;> obtain ⟨n, rfl | rfl⟩ := b.eq_nat_or_neg
  · exact Int.ofNat_le.mpr (nearest_mono (Int.ofNat_le.mp h))
  · have hm : m = 0 := by omega
    have hn : n = 0 := by omega
    rw [hm, hn]
    rfl
  · rw [nearestInt_neg, nearestInt_natCast]
    omega
  · have hmono := nearest_mono (show n ≤ m by omega)
    rw [nearestInt_neg, nearestInt_neg]
    omega

/-- A short number is not confused with another one. -/
theorem eq_of_nearestInt_eq {a b : Int} (ha : a.natAbs < 2 ^ 53)
    (h : nearestInt a = nearestInt b) : a = b := by
  rw [nearestInt_of_le ha.le] at h
  by_cases hb : b.natAbs ≤ 2 ^ 53
  · rw [h, nearestInt_of_le hb]
  · have hlow : nearestInt (-2 ^ 53) = -2 ^ 53 := nearestInt_of_le (by decide)
    have hhigh : nearestInt (2 ^ 53) = 2 ^ 53 := nearestInt_of_le (by decide)
    rcases Int.le_total 0 b with hpos | hneg
    · have hmono := nearestInt_mono (show (2 ^ 53 : Int) ≤ b by omega)
      omega
    · have hmono := nearestInt_mono (show b ≤ (-2 ^ 53 : Int) by omega)
      omega

end DocumentStore.Double
