import GatewayTelemetry.Json.Draft
import Mathlib.Algebra.Order.Ring.Nat

/-! # Whole numbers as doubles

A double is rounded from a mantissa and an exponent, and rounding moves the exponent by no more
than the bits of the mantissa. So no integer of a word leaves the finite range.
-/

namespace GatewayTelemetry.Binary

open Float.Model hiding pack unpack mul ofNat ofScientific neg isFinite
open Float.Model.UnpackedFloat hiding normalize

inductive Within (k : Int) : UnpackedFloat → Prop
  | zero (s : Sign) : Within k (.zero s)
  | finite {s : Sign} {m : Nat} {e : Int} {hPos : 0 < m} (h : e ≤ k) : Within k (.finite s m e hPos)

variable {k l : Int} {u : UnpackedFloat}

theorem Within.isFinite (h : Within k u) : u.isFinite = true := by
  cases h <;> rfl

theorem Within.mono (h : Within k u) (hLe : k ≤ l) : Within l u := by
  cases h with
  | zero s => exact .zero s
  | finite h => exact .finite (Int.le_trans h hLe)

theorem Within.ofMantissa (s : Sign) (m : Nat) {e : Int} (h : e ≤ k) :
    Within k (if hZero : m = 0 then .zero s else .finite s m e (Nat.pos_of_ne_zero hZero)) := by
  by_cases hZero : m = 0
  · rw [dif_pos hZero]
    exact .zero s
  · rw [dif_neg hZero]
    exact .finite h

theorem shiftRight_mantissa (em : ExtendedMantissa) (n : Nat) :
    (em >>> n).mantissa = em.mantissa / 2 ^ n := by
  show (n.repeat ExtendedMantissa.shiftRightOne em).mantissa = em.mantissa / 2 ^ n
  induction n with
  | zero => simp [Nat.repeat]
  | succ n ih =>
    show (n.repeat ExtendedMantissa.shiftRightOne em).mantissa / 2 = _
    rw [ih, Nat.div_div_eq_div_mul, pow_succ]

theorem shiftRight_mantissa_le (em : ExtendedMantissa) (n : Nat) :
    (em >>> n).mantissa ≤ em.mantissa := by
  rw [shiftRight_mantissa]
  exact Nat.div_le_self _ _

theorem roundedMantissa_le (em : ExtendedMantissa) : em.roundedMantissa ≤ em.mantissa + 1 := by
  unfold ExtendedMantissa.roundedMantissa
  cases em.accuracy with
  | exact => exact Nat.le_succ _
  | inexact o =>
    cases o with
    | lt => exact Nat.le_succ _
    | eq =>
      show em.mantissa + em.mantissa % 2 ≤ em.mantissa + 1
      omega
    | gt => exact Nat.le_refl _

theorem ofMantissaAndAccuracy_mantissa (m : Nat) (acc : Accuracy) :
    (ExtendedMantissa.ofMantissaAndAccuracy m acc).mantissa = m := by
  cases acc with
  | exact => rfl
  | inexact o => cases o <;> rfl

theorem targetExponent_eq (e : Int) : Format.binary64.targetExponent e = max (e - 53) (-1074) := rfl

theorem shiftToTargetExponent_bounds {m a : Nat} {e b : Int} (acc : Accuracy)
    (hMantissa : m < 2 ^ a) (hExponent : e ≤ b) (hLow : -1074 ≤ b) :
    (shiftToTargetExponent Format.binary64 m e acc).1.mantissa ≤ m ∧
      (shiftToTargetExponent Format.binary64 m e acc).2 ≤ b + a := by
  constructor
  · refine Nat.le_trans (shiftRight_mantissa_le _ _) ?_
    exact Nat.le_of_eq (ofMantissaAndAccuracy_mantissa m acc)
  · have hBits : m.log2 ≤ a := by
      by_cases hZero : m = 0
      · simp [hZero]
      · exact Nat.le_of_lt ((Nat.log2_lt hZero).mpr hMantissa)
    simp only [shiftToTargetExponent, shiftToExponent, targetExponent_eq, totalExponent]
    omega

theorem roundWithAccuracy_within (s : Sign) {m a : Nat} {e b : Int} (acc : Accuracy)
    (hMantissa : m < 2 ^ a) (hExponent : e ≤ b) (hLow : -1074 ≤ b) :
    Within (b + 2 * a + 1) (roundWithAccuracy Format.binary64 s m e acc) := by
  obtain ⟨hFirst, hFirstExponent⟩ := shiftToTargetExponent_bounds acc hMantissa hExponent hLow
  have hRounded :
      (shiftToTargetExponent Format.binary64 m e acc).1.roundedMantissa < 2 ^ (a + 1) := by
    have hLe := roundedMantissa_le (shiftToTargetExponent Format.binary64 m e acc).1
    rw [Nat.pow_succ]
    omega
  obtain ⟨_, hSecondExponent⟩ :=
    shiftToTargetExponent_bounds .exact hRounded hFirstExponent (by omega)
  exact (Within.ofMantissa s _ hSecondExponent).mono (by omega)

theorem mul_finite_within {s s' : Sign} {m m' a : Nat} {e e' b : Int} {hPos : 0 < m}
    {hPos' : 0 < m'} (hMantissa : m * m' < 2 ^ a) (hExponent : e + e' ≤ b) (hLow : -1074 ≤ b) :
    Within (b + 2 * a + 1) (mul Format.binary64 (.finite s m e hPos) (.finite s' m' e' hPos')) :=
  roundWithAccuracy_within _ _ hMantissa hExponent hLow

theorem shiftLeft_lt {n s a b : Nat} (h : n < 2 ^ a) (hShift : s ≤ b) : n <<< s < 2 ^ (a + b) := by
  rw [Nat.shiftLeft_eq, Nat.pow_add]
  exact Nat.mul_lt_mul_of_lt_of_le h (Nat.pow_le_pow_right (by decide) hShift) (Nat.two_pow_pos b)

theorem normalize_within {n : Nat} (h : n < 2 ^ 53) :
    Within 211 (UnpackedFloat.normalize Format.binary64 n 0 .positive) := by
  unfold UnpackedFloat.normalize
  split
  · have hNegative : (n : Int) < 0 := Int.compare_eq_lt.mp ‹_›
    omega
  · exact .zero _
  · let target := Format.binary64.targetExponent (totalExponent (n : Int).toNat 0)
    have hTarget : -52 ≤ target := by
      simp only [target, targetExponent_eq, totalExponent]
      omega
    have hShift : (0 - target).toNat ≤ 52 := by omega
    have hExponent : 0 - ((0 - target).toNat : Int) ≤ 0 := by omega
    exact roundWithAccuracy_within _ _ (shiftLeft_lt h hShift) hExponent (by decide)

theorem ofScientific_within {n : Nat} (h : n < 2 ^ 64) :
    Within 182 (ofScientific Format.binary64 n 0) := by
  have hRange : (2 : Int) ^ Format.binary64.exponentBits = 2048 := rfl
  have hMantissa : n <<< 53 * 10 ^ (0 : Int).toNat < 2 ^ (64 + 53) := by
    rw [Int.toNat_zero, Nat.pow_zero, Nat.mul_one]
    exact shiftLeft_lt h (Nat.le_refl 53)
  unfold ofScientific
  by_cases hZero : n = 0
  · rw [dif_pos hZero]
    exact .zero _
  · rw [dif_neg hZero, hRange, if_neg (by decide), if_neg (by omega), if_pos (Int.le_refl 0)]
    exact (mul_finite_within hMantissa (Int.le_refl _) (by decide)).mono (by decide)

abbrev Bits := BitVec Format.binary64.numBits

inductive Parts (b : Bits) : UnpackedFloat → Prop
  | zero (hExponent : unpackExponent b = 0#_) (hMantissa : unpackMantissa b = 0#_) :
      Parts b (.zero (.ofBitVec (unpackSign b)))
  | subnormal {m : Nat} {e : Int} {hPos : 0 < m} (hExponent : unpackExponent b = 0#_)
      (hMantissa : m = (unpackMantissa b).toNat) (he : e = -1074) :
      Parts b (.finite (.ofBitVec (unpackSign b)) m e hPos)
  | normal {m : Nat} {e : Int} {hPos : 0 < m} (hExponent : unpackExponent b ≠ 0#_)
      (hMantissa : m = 2 ^ 52 + (unpackMantissa b).toNat)
      (he : e = (unpackExponent b).toNat - 1075) :
      Parts b (.finite (.ofBitVec (unpackSign b)) m e hPos)

theorem parts {b : Bits} (hFinite : unpackExponent b ≠ -1#_) :
    Parts b (unpack Format.binary64 b) := by
  have hElse : unpack Format.binary64 b = _ := if_neg hFinite
  by_cases hExponent : unpackExponent b = 0#_
  · by_cases hMantissa : unpackMantissa b = 0#_
    · rw [hElse.trans ((if_pos hExponent).trans (dif_pos hMantissa))]
      exact .zero hExponent hMantissa
    · rw [hElse.trans ((if_pos hExponent).trans (dif_neg hMantissa))]
      exact .subnormal hExponent rfl (by rw [hExponent]; rfl)
  · rw [hElse.trans (if_neg hExponent)]
    refine .normal hExponent ?_ rfl
    have hBound : (unpackMantissa b).toNat < 2 ^ 52 := (unpackMantissa b).isLt
    rw [BitVec.toNat_append]
    exact (Nat.two_pow_add_eq_or_of_lt hBound 1).symm

theorem unpack_of_top {b : Bits} (h : unpackExponent b = -1#_) :
    (unpack Format.binary64 b).isFinite = false := by
  have hThen : unpack Format.binary64 b = _ := if_pos h
  by_cases hMantissa : unpackMantissa b = 0#_
  · rw [hThen.trans (if_pos hMantissa)]
    rfl
  · rw [hThen.trans (if_neg hMantissa)]
    rfl

theorem isFinite_iff {b : Bits} :
    (unpack Format.binary64 b).isFinite = true ↔ unpackExponent b ≠ -1#_ := by
  constructor
  · intro h hTop
    rw [unpack_of_top hTop] at h
    cases h
  · intro hFinite
    have hParts := parts hFinite
    generalize unpack Format.binary64 b = u at hParts
    cases hParts <;> rfl

theorem unpack_within {b : Bits} (hFinite : unpackExponent b ≠ -1#_)
    (hExponent : (unpackExponent b).toNat - 1075 ≤ k) (hLow : -1074 ≤ k) :
    Within k (unpack Format.binary64 b) := by
  have hParts := parts hFinite
  generalize unpack Format.binary64 b = u at hParts
  cases hParts with
  | zero => exact .zero _
  | subnormal _ _ he => exact .finite (he ▸ hLow)
  | normal _ _ he => exact .finite (he ▸ hExponent)

theorem within_of_isFinite {b : Bits} (h : (unpack Format.binary64 b).isFinite = true) :
    Within 971 (unpack Format.binary64 b) := by
  have hFinite := isFinite_iff.mp h
  have hTop : (unpackExponent b).toNat ≠ 2047 := fun hAll => hFinite (BitVec.eq_of_toNat_eq hAll)
  have hBound : (unpackExponent b).toNat < 2048 := (unpackExponent b).isLt
  exact unpack_within hFinite (by omega) (by omega)

theorem Within.packed (h : Within k u) (hLow : -1074 ≤ k) (hHigh : k < 972) :
    Within k (unpack Format.binary64 (pack Format.binary64 u)) := by
  have hBias : Format.binary64.exponentBias = 1023 := rfl
  cases h with
  | zero s =>
    have hZero : unpack Format.binary64 (pack Format.binary64 (.zero s)) = .zero s := by
      cases s <;> rfl
    rw [hZero]
    exact .zero s
  | @finite s m e _ hExponent =>
    show Within k (unpack Format.binary64
      (if 2 ^ 11 ≤ (e + 1023 + 52).toNat + 1 then _ else if m.log2 + 1 = 53 then _ else _))
    split
    · rename_i hOverflow
      have hReach : 2048 ≤ (e + 1023 + 52).toNat + 1 := hOverflow
      omega
    · split
      · have hValue : (BitVec.ofNat 11 (e + 1023 + 52).toNat).toNat = (e + 1023 + 52).toNat := by
          rw [BitVec.toNat_ofNat]
          exact Nat.mod_eq_of_lt (by omega)
        apply unpack_within _ _ hLow
        · rw [unpackExponent_packComponents]
          intro hAll
          have hTop : (e + 1023 + 52).toNat = 2047 := hValue.symm.trans (congrArg BitVec.toNat hAll)
          omega
        · rw [unpackExponent_packComponents]
          show ((BitVec.ofNat 11 (e + 1023 + 52).toNat).toNat : Int) - 1075 ≤ k
          omega
      · apply unpack_within _ _ hLow
        · simp
        · simp only [unpackExponent_packComponents, BitVec.toNat_zero]
          omega

theorem unpack_mantissa_lt {b : Bits} {s : Sign} {m : Nat} {e : Int} {hPos : 0 < m}
    (h : unpack Format.binary64 b = .finite s m e hPos) : m < 2 ^ 53 := by
  have hParts := parts (isFinite_iff.mp (by rw [h]; rfl))
  rw [h] at hParts
  have hBound : (unpackMantissa b).toNat < 2 ^ 52 := (unpackMantissa b).isLt
  cases hParts <;> omega

theorem mul_within {b c : Bits}
    (hFirst : Within k (unpack Format.binary64 b)) (hSecond : Within l (unpack Format.binary64 c))
    (hLow : -1074 ≤ k + l) :
    Within (k + l + 2 * (53 + 53 : Nat) + 1)
      (mul Format.binary64 (unpack Format.binary64 b) (unpack Format.binary64 c)) := by
  generalize hb : unpack Format.binary64 b = x at hFirst
  generalize hc : unpack Format.binary64 c = y at hSecond
  cases hFirst with
  | zero s => cases hSecond <;> exact .zero _
  | finite hFirst =>
    cases hSecond with
    | zero s => exact .zero _
    | finite hSecond =>
      refine mul_finite_within ?_ (Int.add_le_add hFirst hSecond) hLow
      rw [Nat.pow_add]
      exact Nat.mul_lt_mul'' (unpack_mantissa_lt hb) (unpack_mantissa_lt hc)

theorem isFinite_ofNat {n : Nat} (h : n < 2 ^ 64) : (Float.ofNat n).isFinite = true := by
  show (Float.ofScientific n false 0).isFinite = true
  unfold Float.ofScientific
  split
  · rename_i hSmall
    have hWord : Within 211 n.toUInt64.toFloat.toModel.unpack := by
      have hRounded : Within 211
          (UnpackedFloat.normalize Format.binary64 (n % 2 ^ 64 : Nat) 0 .positive) := by
        rw [Nat.mod_eq_of_lt h]
        exact normalize_within hSmall.1
      exact hRounded.packed (by decide) (by decide)
    have hOne : Within (-52) (Float.ofBits 0x3FF0000000000000).toModel.unpack :=
      .finite (Int.le_refl (-52))
    exact ((mul_within hWord hOne (by decide)).packed (by decide) (by decide)).isFinite
  · exact ((ofScientific_within h).packed (by decide) (by decide)).isFinite

theorem isFinite_neg {x : Float} (h : x.isFinite = true) : (-x).isFinite = true := by
  have hBound : Within 971 x.toModel.unpack := within_of_isFinite h
  have hNeg : Within 971 x.toModel.unpack.neg := by
    generalize x.toModel.unpack = u at hBound
    cases hBound with
    | zero s => exact .zero _
    | finite h => exact .finite h
  exact (hNeg.packed (by decide) (by decide)).isFinite

theorem isFinite_ofInt {n : Int} (hLow : -9223372036854775808 ≤ n)
    (hHigh : n < 18446744073709551616) : (Float.ofInt n).isFinite = true := by
  cases n with
  | ofNat n => exact isFinite_ofNat (by simp only [Int.ofNat_eq_natCast] at hHigh; omega)
  | negSucc n => exact isFinite_neg (isFinite_ofNat (by omega))

end GatewayTelemetry.Binary

namespace GatewayTelemetry.Draft

theorem isFinite_of_float? {d : Draft} {x : Float} (h : d.float? = some x) : x.isFinite = true := by
  unfold float? at h
  split at h
  · rename_i n hRange
    cases h
    exact Binary.isFinite_ofInt hRange.1 hRange.2
  · rename_i hFinite
    cases h
    exact hFinite
  · cases h

end GatewayTelemetry.Draft
