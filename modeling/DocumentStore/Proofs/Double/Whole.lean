import DocumentStore.Decimal.Shortest
import DocumentStore.Proofs.Double.Rounding

/-! Whole numbers as doubles. A whole number is rounded to fifty-three bits when it becomes a
double, so that a short one comes back unchanged and a long one stays long. -/

namespace DocumentStore.Double

open Float.Model Float.Model.UnpackedFloat

theorem mantissa_shiftRight (em : ExtendedMantissa) (k : Nat) :
    (em >>> k).mantissa = em.mantissa / 2 ^ k := by
  induction k with
  | zero => simp [HShiftRight.hShiftRight, Nat.repeat]
  | succ k ih =>
    change (em >>> k).mantissa / 2 = _
    rw [ih, Nat.div_div_eq_div_mul, ← Nat.pow_succ]

/-- A shift that drops zeros only stays exact. -/
theorem shiftRight_exact (m k : Nat) :
    ExtendedMantissa.mk (m * 2 ^ k) false false >>> k = ⟨m, false, false⟩ := by
  induction k generalizing m with
  | zero => simp [HShiftRight.hShiftRight, Nat.repeat]
  | succ k ih =>
    have hk : ExtendedMantissa.mk (m * 2 ^ (k + 1)) false false >>> k = ⟨m * 2, false, false⟩ := by
      rw [Nat.pow_succ', ← Nat.mul_assoc]
      exact ih (m * 2)
    change ExtendedMantissa.shiftRightOne
      (ExtendedMantissa.mk (m * 2 ^ (k + 1)) false false >>> k) = _
    rw [hk]
    simp [ExtendedMantissa.shiftRightOne]

theorem log2_mul_two_pow {m : Nat} (k : Nat) (h : m ≠ 0) : (m * 2 ^ k).log2 = m.log2 + k := by
  obtain ⟨hl, hu⟩ := (Nat.log2_eq_iff h).mp rfl
  have hlow := Nat.mul_le_mul_right (2 ^ k) hl
  have hhigh := Nat.mul_lt_mul_of_pos_right hu (Nat.two_pow_pos k)
  rw [← Nat.pow_add] at hlow hhigh
  refine (Nat.log2_eq_iff (Nat.mul_pos (Nat.pos_of_ne_zero h) (Nat.two_pow_pos k)).ne').mpr
    ⟨hlow, ?_⟩
  exact hhigh.trans_eq (congrArg _ (by omega))

/-- The mantissa of a normal double, which has fifty-three bits. -/
def NormalMantissa (m : Nat) : Prop :=
  2 ^ 52 ≤ m ∧ m < 2 ^ 53

theorem log2_normal {m : Nat} (h : NormalMantissa m) : m.log2 = 52 := by
  obtain ⟨hl, hu⟩ := h
  exact (Nat.log2_eq_iff (by omega)).mpr ⟨hl, hu⟩

theorem shiftToTarget {m : Nat} {e : Int} {k : Nat} (hm : m.log2 = 52 + k) (he : -1074 ≤ e + k) :
    shiftToTargetExponent Format.binary64 m e .exact =
      (ExtendedMantissa.mk m false false >>> k, e + k) := by
  have ht : Format.binary64.targetExponent (totalExponent m e) = e + k := by
    simp only [Format.targetExponent, totalExponent, hm, Format.mantissaBits, Format.minExponent]
    omega
  have hk : (e + k - e).toNat = k := by omega
  simp only [shiftToTargetExponent, ht, shiftToExponent, hk,
    ExtendedMantissa.ofMantissaAndAccuracy]

theorem shiftToTarget_normal {m : Nat} {e : Int} (hm : NormalMantissa m) (he : -1074 ≤ e) :
    shiftToTargetExponent Format.binary64 m e .exact = (⟨m, false, false⟩, e) := by
  have h := shiftToTarget (k := 0) (log2_normal hm) (by simpa using he)
  simpa [HShiftRight.hShiftRight, Nat.repeat] using h

/-- Rounding brings a number with at least fifty-three bits to normal form. -/
theorem round_normal {m : Nat} {e : Int} {k : Nat} (hm : m.log2 = 52 + k) (he : -1074 ≤ e + k) :
    ∃ m' e' h, roundWithAccuracy Format.binary64 .positive m e .exact = .finite .positive m' e' h ∧
      NormalMantissa m' ∧ e + k ≤ e' ∧ e' ≤ e + k + 1 ∧
      m' * 2 ^ (e' - (e + k)).toNat = divNearest m (2 ^ k) := by
  have hne : m ≠ 0 := by
    rintro rfl
    simp at hm
    omega
  obtain ⟨hl, hu⟩ := (Nat.log2_eq_iff hne).mp hm
  have hdiv : NormalMantissa (m / 2 ^ k) := by
    constructor
    · rw [Nat.le_div_iff_mul_le (Nat.two_pow_pos k), ← Nat.pow_add]
      exact hl
    · rw [Nat.div_lt_iff_lt_mul (Nat.two_pow_pos k), ← Nat.pow_add]
      exact hu.trans_eq (congrArg _ (by omega))
  have hshift := shiftToTarget hm he
  have hbounds := divNearest_bounds m (2 ^ k)
  have hr := roundedMantissa_shiftRight m k
  generalize divNearest m (2 ^ k) = r at hbounds hr
  obtain ⟨hd, hd'⟩ := hdiv
  by_cases hlast : r < 2 ^ 53
  · have hnormal : NormalMantissa r := ⟨by omega, hlast⟩
    refine ⟨r, e + k, by omega, ?_, hnormal, le_refl _, by omega, by simp⟩
    simp only [roundWithAccuracy, hshift, hr, shiftToTarget_normal hnormal he]
    rw [dif_neg (by omega)]
  · obtain rfl : r = 2 ^ 53 := by omega
    have hcarry : shiftToTargetExponent Format.binary64 (2 ^ 53) (e + k) .exact =
        (⟨2 ^ 52, false, false⟩, e + k + 1) := by
      rw [shiftToTarget (k := 1) (by rw [Nat.log2_two_pow]) (by omega)]
      rfl
    refine ⟨2 ^ 52, e + k + 1, by decide, ?_, ⟨le_refl _, by decide⟩, by omega, le_refl _, ?value⟩
    case value =>
      have hone : (e + k + 1 - (e + k)).toNat = 1 := by omega
      rw [hone, ← Nat.pow_add]
    simp only [roundWithAccuracy, hshift, hr, hcarry]
    rw [dif_neg (by decide)]

/-- A normal mantissa with zeros behind it is rounded to itself. -/
theorem round_exact {m : Nat} {e : Int} {k : Nat} (hm : NormalMantissa m) (he : -1074 ≤ e + k) :
    ∃ h, roundWithAccuracy Format.binary64 .positive (m * 2 ^ k) e .exact =
      .finite .positive m (e + k) h := by
  have hpos : 0 < m := Nat.lt_of_lt_of_le (by decide) hm.1
  have hlog : (m * 2 ^ k).log2 = 52 + k := by
    rw [log2_mul_two_pow k hpos.ne', log2_normal hm]
  refine ⟨hpos, ?_⟩
  have hr : (ExtendedMantissa.mk m false false).roundedMantissa = m := rfl
  simp only [roundWithAccuracy, shiftToTarget hlog he, shiftRight_exact, hr,
    shiftToTarget_normal hm he]
  rw [dif_neg (by omega)]

/-- A positive double in normal form. -/
def HasParts (x : Float) (m : Nat) (e : Int) : Prop :=
  NormalMantissa m ∧ ∃ h, x.toModel.unpack = .finite .positive m e h

theorem unpack_pack {m : Nat} {e : Int} (hm : NormalMantissa m) (hl : -1074 ≤ e) (hu : e ≤ 971)
    (s : Sign) (h : 0 < m) : (Float.Model.pack (.finite s m e h)).unpack = .finite s m e h := by
  change UnpackedFloat.unpack Format.binary64
    (UnpackedFloat.pack Format.binary64 (.finite s m e h)) = _
  have hin : ¬ 2 ^ Format.binary64.exponentBits ≤
      (e + Format.binary64.exponentBias +
        Format.binary64.mantissaBitsWithoutImplicit).toNat + 1 := by
    change ¬ 2048 ≤ (e + 1023 + 52).toNat + 1
    omega
  simp only [UnpackedFloat.pack, if_neg hin, log2_normal hm]
  rw [if_pos (show 52 + 1 = Format.binary64.mantissaBits from rfl)]
  simp only [UnpackedFloat.unpack, unpackMantissa_packComponents, unpackExponent_packComponents,
    unpackSign_packComponents]
  have hbiased : (BitVec.ofNat Format.binary64.exponentBits (e + Format.binary64.exponentBias +
      Format.binary64.mantissaBitsWithoutImplicit).toNat).toNat = (e + 1075).toNat := by
    change (e + 1023 + 52).toNat % 2048 = (e + 1075).toNat
    omega
  have hmantissa :
      (1#1 ++ BitVec.ofNat Format.binary64.mantissaBitsWithoutImplicit m).toNat = m := by
    have hlow := hm.1
    have hhigh := hm.2
    simp only [BitVec.toNat_append, BitVec.toNat_ofNat, Nat.shiftLeft_eq]
    change 2 ^ 52 ||| (m % 2 ^ 52) = m
    rw [Nat.or_comm, Nat.or_two_pow_eq_add_of_lt (Nat.mod_lt m (Nat.two_pow_pos 52))]
    omega
  have hexponent : ((e + 1075).toNat : Int) -
      (Format.binary64.exponentBias + Format.binary64.mantissaBitsWithoutImplicit) = e := by
    change ((e + 1075).toNat : Int) - (1023 + 52) = e
    omega
  have hbetween {b : BitVec Format.binary64.exponentBits} (hb : b.toNat = 0 ∨ b.toNat = 2047) :
      BitVec.ofNat Format.binary64.exponentBits (e + Format.binary64.exponentBias +
        Format.binary64.mantissaBitsWithoutImplicit).toNat ≠ b := by
    rintro rfl
    rw [hbiased] at hb
    omega
  rw [if_neg (hbetween (.inr rfl)), if_neg (hbetween (.inl rfl))]
  simp only [hbiased, hmantissa, hexponent]
  cases s <;> rfl

theorem hasParts_pack {m : Nat} {e : Int} (hm : NormalMantissa m) (hl : -1074 ≤ e)
    (hu : e ≤ 971) (h : 0 < m) : HasParts ⟨Float.Model.pack (.finite .positive m e h)⟩ m e :=
  ⟨hm, h, unpack_pack hm hl hu .positive h⟩

theorem parts_of_hasParts {x : Float} {m : Nat} {e : Int} (h : HasParts x m e) :
    (Decimal.parts x).mantissa = m ∧ (Decimal.parts x).exponent = e := by
  obtain ⟨hm, hpos, hx⟩ := h
  let bits := x.toModel.toBits.toBitVec
  have hexponent : (@unpackExponent Format.binary64 bits).toNat =
      x.toBits.toNat / Decimal.hiddenBit % 0x800 := by
    change (BitVec.extractLsb 62 52 bits).toNat = _
    rw [BitVec.extractLsb_toNat, Nat.shiftRight_eq_div_pow]
    rfl
  have hmantissa : (@unpackMantissa Format.binary64 bits).toNat =
      x.toBits.toNat % Decimal.hiddenBit := by
    change (BitVec.extractLsb 51 0 bits).toNat = _
    rw [BitVec.extractLsb_toNat]
    rfl
  change UnpackedFloat.unpack Format.binary64 bits = _ at hx
  simp only [UnpackedFloat.unpack] at hx
  split at hx
  · split at hx <;> cases hx
  · split at hx
    · split at hx
      · cases hx
      · have hshort := (@unpackMantissa Format.binary64 bits).isLt
        injection hx with _ hm'
        exact absurd hm.1 (by rw [← hm']; exact Nat.not_le.mpr hshort)
    · next hne =>
      injection hx with _ hm' he'
      have hb : x.toBits.toNat / Decimal.hiddenBit % 0x800 ≠ 0 := by
        rw [← hexponent]
        exact fun h0 => hne (BitVec.eq_of_toNat_eq h0)
      simp only [Decimal.parts, if_neg hb]
      constructor
      · rw [← hm', ← hmantissa, BitVec.toNat_append, Nat.shiftLeft_eq]
        have hshort : (@unpackMantissa Format.binary64 bits).toNat < 2 ^ 52 :=
          (@unpackMantissa Format.binary64 bits).isLt
        change 2 ^ 52 + _ = 1 * 2 ^ 52 ||| _
        rw [Nat.one_mul, Nat.or_comm, Nat.or_two_pow_eq_add_of_lt hshort, Nat.add_comm]
      · rw [← he', hexponent]
        rfl

theorem nonneg_of_hasParts {x : Float} {m : Nat} {e : Int} (h : HasParts x m e) : 0 ≤ x := by
  obtain ⟨-, hpos, hx⟩ := h
  rw [nonneg_iff, hx]
  trivial

theorem toUInt64_of_hasParts {x : Float} {m : Nat} {e : Int} (h : HasParts x m e) :
    x.toUInt64 = UInt64.ofNatClamp (m * 2 ^ e.toNat / 2 ^ (-e).toNat) := by
  obtain ⟨-, hpos, hx⟩ := h
  change x.toModel.unpack.toUInt64 = _
  rw [hx]
  simp only [UnpackedFloat.toUInt64, UnpackedFloat.toInt, roundToInt, decreaseExponent,
    shiftToExponent, ExtendedMantissa.ofMantissaAndAccuracy, mantissa_shiftRight, Sign.apply,
    Nat.shiftLeft_eq]
  have hlow : (0 - (e - ((e - 0).toNat : Int))).toNat = (-e).toNat := by omega
  rw [hlow, Int.sub_zero, Int.toNat_natCast]

/-- What a whole number of at most fifty-three bits is as a double. -/
theorem hasParts_ofUInt64 {n : UInt64} {j : Nat} (hm : NormalMantissa (n.toNat * 2 ^ j)) :
    HasParts n.toFloat (n.toNat * 2 ^ j) (-j) := by
  have hpos : 0 < n.toNat * 2 ^ j := Nat.lt_of_lt_of_le (by decide) hm.1
  have hn : 0 < n.toNat := Nat.pos_of_mul_pos_right hpos
  have hj : n.toNat.log2 + j = 52 := by
    rw [← log2_mul_two_pow j hn.ne', log2_normal hm]
  have hround : UnpackedFloat.ofUInt64 Format.binary64 n =
      .finite .positive (n.toNat * 2 ^ j) (-j) hpos := by
    have hcompare : compare (n.toNat : Int) 0 = .gt := by
      rw [Int.compare_eq_gt]
      omega
    have ht : Format.binary64.targetExponent (totalExponent n.toNat 0) = -j := by
      simp only [Format.targetExponent, totalExponent, Format.mantissaBits, Format.minExponent]
      omega
    have hshift : (0 - -(j : Int)).toNat = j := by omega
    obtain ⟨h, hexact⟩ := round_exact (e := -j) (k := 0) hm (by omega)
    simp only [UnpackedFloat.ofUInt64, UnpackedFloat.ofNat, UnpackedFloat.ofInt,
      UnpackedFloat.normalize,
      hcompare, Int.toNat_natCast, UnpackedFloat.round, ht, decreaseExponent, hshift,
      Nat.shiftLeft_eq]
    simpa using hexact
  change HasParts ⟨Float.Model.pack (UnpackedFloat.ofUInt64 Format.binary64 n)⟩ _ _
  rw [hround]
  exact hasParts_pack hm (by omega) (by omega) hpos

theorem one_unpack : (Float.ofBits 4607182418800017408).toModel.unpack =
    .finite .positive (2 ^ 52) (-52) (by decide) := rfl

theorem mul_one_parts {x : Float} {m : Nat} {e : Int} (h : HasParts x m e) (hl : -1022 ≤ e)
    (hu : e ≤ 971) : HasParts (x * Float.ofBits 4607182418800017408) m e := by
  obtain ⟨hm, hpos, hx⟩ := h
  have he : e + -52 + ((52 : Nat) : Int) = e := by omega
  obtain ⟨hpos', hround⟩ := round_exact (e := e + -52) (k := 52) hm (by omega)
  change HasParts ⟨Float.Model.pack (UnpackedFloat.mul Format.binary64 x.toModel.unpack
    (Float.ofBits 4607182418800017408).toModel.unpack)⟩ m e
  rw [hx, one_unpack]
  change HasParts ⟨Float.Model.pack (roundWithAccuracy Format.binary64 .positive (m * 2 ^ 52)
    (e + -52) .exact)⟩ m e
  rw [hround]
  simp only [he]
  exact hasParts_pack hm (by omega) hu hpos

theorem ofNat_eq_small {n : Nat} (h : n < 2 ^ 53) :
    Float.ofNat n = n.toUInt64.toFloat * Float.ofBits 4607182418800017408 := by
  change Float.ofScientific n false 0 = _
  rw [Float.ofScientific, dif_pos ⟨h, by decide⟩]
  rfl

theorem ofNat_eq_large {n : Nat} (h : 2 ^ 53 ≤ n) :
    Float.ofNat n = ⟨Float.Model.ofScientific n 0⟩ := by
  change Float.ofScientific n false 0 = _
  rw [Float.ofScientific, dif_neg (fun hs => by omega)]
  rfl

theorem hasParts_ofNat_small {n : Nat} (hpos : 0 < n) (h : n < 2 ^ 53) :
    ∃ j : Nat, HasParts (Float.ofNat n) (n * 2 ^ j) (-j) := by
  have hlog : n.log2 < 53 := (Nat.log2_lt hpos.ne').mpr h
  obtain ⟨hl, hu⟩ := (Nat.log2_eq_iff hpos.ne').mp rfl
  have hword : n.toUInt64.toNat = n := UInt64.toNat_ofNat_of_lt (h.trans (by decide))
  have hm : NormalMantissa (n.toUInt64.toNat * 2 ^ (52 - n.log2)) := by
    have hlow := Nat.mul_le_mul_right (2 ^ (52 - n.log2)) hl
    have hhigh := Nat.mul_lt_mul_of_pos_right hu (Nat.two_pow_pos (52 - n.log2))
    rw [← Nat.pow_add] at hlow hhigh
    rw [hword]
    exact ⟨(congrArg _ (by omega)).trans_le hlow, hhigh.trans_eq (congrArg _ (by omega))⟩
  refine ⟨52 - n.log2, ?_⟩
  have hparts := mul_one_parts (hasParts_ofUInt64 hm) (by omega) (by omega)
  rwa [hword, ← ofNat_eq_small h] at hparts

theorem hasParts_ofNat_large {n : Nat} (hl : 2 ^ 53 ≤ n) (hu : n < 2 ^ 64) :
    ∃ m e, HasParts (Float.ofNat n) m e ∧ 1 ≤ e ∧ e ≤ 971 ∧ m * 2 ^ e.toNat = nearest n := by
  have hn : n ≠ 0 := by omega
  have hlow : 53 ≤ n.log2 := (Nat.le_log2 hn).mpr hl
  have hhigh : n.log2 < 64 := (Nat.log2_lt hn).mpr hu
  have hlog : (n * 2 ^ 53).log2 = 52 + (n.log2 + 1) := by
    rw [log2_mul_two_pow 53 hn]
    omega
  obtain ⟨m, e, hpos, hround, hm, hle, hge, hvalue⟩ := round_normal (e := -53) hlog (by omega)
  have hsci : UnpackedFloat.ofScientific Format.binary64 n 0 = .finite .positive m e hpos := by
    have hone : ¬ (0 : Int) < -(2 ^ Format.binary64.exponentBits + (n.log2 : Int)) := by
      change ¬ (0 : Int) < -(2048 + (n.log2 : Int))
      omega
    rw [UnpackedFloat.ofScientific, dif_neg hn, if_neg (by decide), if_neg hone,
      if_pos (le_refl (0 : Int))]
    have hmantissa : n <<< Format.binary64.mantissaBits * 10 ^ Int.toNat 0 = n * 2 ^ 53 := by
      rw [Nat.shiftLeft_eq]
      exact Nat.mul_one _
    change roundWithAccuracy Format.binary64 .positive
      (n <<< Format.binary64.mantissaBits * 10 ^ Int.toNat 0) (-53) .exact = _
    rw [hmantissa, hround]
  have hlost : n.log2 + 1 = lostBits n + 53 := by
    unfold lostBits
    omega
  have hexponent : e.toNat = (e - (-53 + ((n.log2 + 1 : Nat) : Int))).toNat + lostBits n := by
    omega
  have hnearest : m * 2 ^ e.toNat = nearest n := by
    rw [nearest, ← divNearest_mul n _ (Nat.two_pow_pos 53), ← Nat.pow_add, ← hlost, ← hvalue,
      Nat.mul_assoc, ← Nat.pow_add, ← hexponent]
  refine ⟨m, e, ?_, by omega, by omega, hnearest⟩
  rw [ofNat_eq_large hl]
  change HasParts ⟨Float.Model.pack (UnpackedFloat.ofScientific Format.binary64 n 0)⟩ m e
  rw [hsci]
  exact hasParts_pack hm (by omega) (by omega) hpos

theorem isIntegral_of_hasParts {x : Float} {m : Nat} {e : Int} (h : HasParts x m e)
    (hw : 0 ≤ e ∨ 2 ^ (-e).toNat ∣ m) : Decimal.isIntegral x = true := by
  obtain ⟨hmantissa, hexponent⟩ := parts_of_hasParts h
  obtain ⟨-, hpos, hx⟩ := h
  have hfinite : x.isFinite = true := by
    change x.toModel.unpack.isFinite = true
    rw [hx]
    rfl
  simp only [Decimal.isIntegral, hfinite, hmantissa, hexponent, Bool.true_and, Bool.or_eq_true,
    decide_eq_true_eq, beq_iff_eq]
  exact hw.imp_right Nat.mod_eq_zero_of_dvd

theorem toNat_ofNatClamp (n : Nat) : (UInt64.ofNatClamp n).toNat = min n (2 ^ 64 - 1) := by
  unfold UInt64.ofNatClamp
  split
  · next h =>
    change n < 2 ^ 64 at h
    change n = _
    omega
  · next h =>
    change ¬ n < 2 ^ 64 at h
    change 2 ^ 64 - 1 = _
    omega

/-- Whole numbers below two to the sixty-fourth as doubles. They stay whole, they stay themselves
as long as they have at most fifty-three bits, and longer ones stay longer. -/
theorem ofNat_whole {n : Nat} (h : n < 2 ^ 64) :
    0 ≤ Float.ofNat n ∧ Decimal.isIntegral (Float.ofNat n) = true ∧
      (n < 2 ^ 53 → (Float.ofNat n).toUInt64.toNat = n) ∧
      (2 ^ 53 ≤ n → 2 ^ 53 ≤ (Float.ofNat n).toUInt64.toNat) := by
  rcases Nat.eq_zero_or_pos n with rfl | hpos
  · decide +kernel
  · rcases Nat.lt_or_ge n (2 ^ 53) with hs | hl
    · obtain ⟨j, hparts⟩ := hasParts_ofNat_small hpos hs
      have hj : (- -(j : Int)).toNat = j := by omega
      have hzero : (-(j : Int)).toNat = 0 := by omega
      refine ⟨nonneg_of_hasParts hparts, isIntegral_of_hasParts hparts (.inr ?_), fun _ => ?_,
        fun hl => absurd hl (by omega)⟩
      · rw [hj]
        exact Nat.dvd_mul_left _ _
      · rw [toUInt64_of_hasParts hparts, hj, hzero, Nat.pow_zero, Nat.mul_one,
          Nat.mul_div_cancel _ (Nat.two_pow_pos j), toNat_ofNatClamp]
        omega
    · obtain ⟨m, e, hparts, he, -, -⟩ := hasParts_ofNat_large hl h
      have hlong : 2 ^ 52 * 2 ^ 1 ≤ m * 2 ^ e.toNat :=
        Nat.mul_le_mul hparts.1.1 (Nat.pow_le_pow_right (by decide) (by omega))
      have hzero : (-e).toNat = 0 := by omega
      refine ⟨nonneg_of_hasParts hparts, isIntegral_of_hasParts hparts (.inl (by omega)),
        fun hs => absurd hl (by omega), fun _ => ?_⟩
      rw [toUInt64_of_hasParts hparts, hzero, Nat.pow_zero, Nat.div_one, toNat_ofNatClamp]
      omega

end DocumentStore.Double
