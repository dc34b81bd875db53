import GatewayTelemetry.Decimal.Shortest
import GatewayTelemetry.Proofs.Decimal.Value
import Mathlib.Tactic.Linarith

/-! # The double nearest to a number

The doubles next to one of exponent `e` are `2 ^ e` away, but half of that below a mantissa at the
foot of its binade. What lies within half of these gaps is rounded to the double, and so are their
ends if the mantissa is even.
-/

namespace GatewayTelemetry.Binary

open Float.Model hiding pack unpack mul ofNat ofScientific neg isFinite
open Float.Model.UnpackedFloat hiding normalize
open Decimal (binaryOf isNegative)

/-- Rounding to nearest: no double is nearer to the number than this one, and if one of another
value is as near, this is the one with the even mantissa. From half a gap above the greatest double
on, numbers are rounded to an infinity. -/
structure RoundsTo (q : ℚ) (x : Float) : Prop where
  finite : x.isFinite = true
  inRange : |q| < (2 ^ 54 - 1) * 2 ^ 970
  nearest : ∀ y : Float, y.isFinite = true → |q - value x| ≤ |q - value y|
  even : ∀ y : Float, y.isFinite = true → value y ≠ value x → |q - value x| = |q - value y| →
    x.toBits.toNat % 2 = 0

/-- A magnitude that doubles have. -/
structure Fits (b : Decimal.Binary) : Prop extends Canonical b.mantissa b.exponent where
  most : b.exponent ≤ 971
  narrow : b.narrow = true ↔ b.mantissa = 2 ^ 52 ∧ -1074 < b.exponent

def magnitude (b : Decimal.Binary) : ℚ := b.mantissa * 2 ^ b.exponent

def quarter (b : Decimal.Binary) : ℚ := 2 ^ (b.exponent - 2)

def lower (b : Decimal.Binary) : ℚ := (4 * b.mantissa - if b.narrow then 1 else 2) * quarter b

def upper (b : Decimal.Binary) : ℚ := (4 * b.mantissa + 2) * quarter b

def Holds (b : Decimal.Binary) (q : ℚ) : Prop :=
  if b.mantissa % 2 = 0 then lower b ≤ q ∧ q ≤ upper b else lower b < q ∧ q < upper b

def signed (negative : Bool) (q : ℚ) : ℚ := if negative then -q else q

variable {b b' : Decimal.Binary} {q : ℚ} {x : Float}

theorem quarter_pos (b : Decimal.Binary) : 0 < quarter b := zpow_pos two_pos _

theorem unit_eq (b : Decimal.Binary) : (2 : ℚ) ^ b.exponent = 4 * quarter b := by
  rw [quarter, zpow_sub₀ two_ne_zero]
  ring

theorem magnitude_eq (b : Decimal.Binary) : magnitude b = 4 * b.mantissa * quarter b := by
  rw [magnitude, unit_eq]
  ring

theorem Holds.between (h : Holds b q) : lower b ≤ q ∧ q ≤ upper b := by
  unfold Holds at h
  split at h
  · exact h
  · exact ⟨h.1.le, h.2.le⟩

theorem holds_of_between (hLower : lower b < q) (hUpper : q < upper b) : Holds b q := by
  unfold Holds
  split
  · exact ⟨hLower.le, hUpper.le⟩
  · exact ⟨hLower, hUpper⟩

namespace Fits

theorem less (h : Fits b) (h' : Fits b') (hLess : magnitude b < magnitude b') :
    b.exponent < b'.exponent ∨ b.exponent = b'.exponent ∧ b.mantissa < b'.mantissa := by
  rcases lt_trichotomy b.exponent b'.exponent with hBelow | hSame | hAbove
  · exact .inl hBelow
  · refine .inr ⟨hSame, not_le.mp fun hLe => hLess.not_ge ?_⟩
    rw [magnitude, magnitude, hSame]
    gcongr
  · exact absurd hLess (scaled_lt h'.toCanonical h.toCanonical (.inl hAbove)).not_gt

theorem add_le (h : Fits b) (h' : Fits b') (hLess : magnitude b < magnitude b') :
    magnitude b + 4 * quarter b ≤ magnitude b' := by
  have hNext : magnitude b + 4 * quarter b = (b.mantissa + 1 : ℕ) * 2 ^ b.exponent := by
    rw [magnitude, ← unit_eq]
    push_cast
    ring
  rw [hNext, magnitude]
  rcases h.less h' hLess with hExponent | ⟨hExponent, hMantissa⟩
  · have hFull : 2 ^ 52 ≤ b'.mantissa := h'.full (lt_of_le_of_lt h.least hExponent)
    have hBound : b.mantissa + 1 ≤ 2 ^ 53 := h.lt
    calc ((b.mantissa + 1 : ℕ) : ℚ) * 2 ^ b.exponent ≤ 2 ^ 53 * 2 ^ b.exponent := by
          gcongr
          exact_mod_cast hBound
      _ = 2 ^ 52 * 2 ^ (b.exponent + 1) := by
          rw [zpow_add₀ two_ne_zero]
          ring
      _ ≤ b'.mantissa * 2 ^ b'.exponent := by
          gcongr
          · exact_mod_cast hFull
          · norm_num
          · omega
  · rw [hExponent]
    gcongr
    exact hMantissa

theorem le_sub (h : Fits b) (h' : Fits b') (hLess : magnitude b' < magnitude b) :
    magnitude b' + 2 * (magnitude b - lower b) ≤ magnitude b := by
  have hQuarter := quarter_pos b
  rcases h'.less h hLess with hExponent | ⟨hExponent, hMantissa⟩
  · have hBound : (b'.mantissa : ℚ) ≤ 2 ^ 53 - 1 := by
      have hLe : b'.mantissa + 1 ≤ 2 ^ 53 := h'.lt
      have hCast : ((b'.mantissa + 1 : ℕ) : ℚ) ≤ (2 ^ 53 : ℕ) := Nat.cast_le.mpr hLe
      push_cast at hCast
      linarith
    have hBelow : magnitude b' ≤ (2 ^ 53 - 1) * (2 * quarter b) := by
      calc magnitude b' ≤ (2 ^ 53 - 1) * 2 ^ b'.exponent := by
            rw [magnitude]
            gcongr
        _ ≤ (2 ^ 53 - 1) * 2 ^ (b.exponent - 1) := by
            gcongr
            · norm_num
            · omega
        _ = (2 ^ 53 - 1) * (2 * quarter b) := by
            rw [quarter, zpow_sub₀ two_ne_zero, zpow_sub₀ two_ne_zero]
            ring
    have hAbove : -1074 < b.exponent := lt_of_le_of_lt h'.least hExponent
    have hFull : 2 ^ 52 ≤ b.mantissa := h.full hAbove
    rw [magnitude_eq b, lower]
    cases hNarrow : b.narrow with
    | true =>
      have hFoot : (b.mantissa : ℚ) = 2 ^ 52 := by exact_mod_cast (h.narrow.mp hNarrow).1
      rw [hFoot, if_pos rfl]
      linarith
    | false =>
      have hOver : (2 ^ 52 + 1 : ℚ) ≤ b.mantissa := by
        have hNe : b.mantissa ≠ 2 ^ 52 := fun hFoot => by
          rw [h.narrow.mpr ⟨hFoot, hAbove⟩] at hNarrow
          cases hNarrow
        exact_mod_cast Nat.lt_of_le_of_ne hFull hNe.symm
      rw [if_neg Bool.false_ne_true]
      nlinarith
  · have hLe : (b'.mantissa : ℚ) + 1 ≤ b.mantissa := by exact_mod_cast hMantissa
    have hSame : quarter b' = quarter b := by rw [quarter, quarter, hExponent]
    rw [magnitude_eq b', magnitude_eq b, lower, hSame]
    split <;> nlinarith

theorem between (h : Fits b) (h' : Fits b') :
    (magnitude b' < magnitude b → magnitude b' + magnitude b ≤ 2 * lower b) ∧
      (magnitude b < magnitude b' → 2 * upper b ≤ magnitude b + magnitude b') := by
  constructor
  · intro hBelow
    linarith [h.le_sub h' hBelow]
  · intro hAbove
    have hUpper : upper b = magnitude b + 2 * quarter b := by
      rw [upper, magnitude_eq]
      ring
    linarith [h.add_le h' hAbove]

theorem dist_le (h : Fits b) (h' : Fits b') (hHolds : Holds b q) :
    |q - magnitude b| ≤ |q - magnitude b'| := by
  obtain ⟨hLower, hUpper⟩ := hHolds.between
  rcases lt_trichotomy (magnitude b') (magnitude b) with hBelow | hSame | hAbove
  · have hMiddle := (h.between h').1 hBelow
    rw [abs_of_nonneg (by linarith : 0 ≤ q - magnitude b'), abs_le]
    constructor <;> linarith
  · rw [hSame]
  · have hMiddle := (h.between h').2 hAbove
    rw [abs_of_nonpos (by linarith : q - magnitude b' ≤ 0), abs_le]
    constructor <;> linarith

/-- With an odd mantissa the ends are left out, so no other magnitude is as near. -/
theorem dist_lt (h : Fits b) (h' : Fits b') (hHolds : Holds b q) (hOdd : b.mantissa % 2 ≠ 0)
    (hOther : magnitude b' ≠ magnitude b) : |q - magnitude b| < |q - magnitude b'| := by
  rw [Holds, if_neg hOdd] at hHolds
  obtain ⟨hLower, hUpper⟩ := hHolds
  rcases lt_or_gt_of_ne hOther with hBelow | hAbove
  · have hMiddle := (h.between h').1 hBelow
    rw [abs_of_nonneg (by linarith : 0 ≤ q - magnitude b'), abs_lt]
    constructor <;> linarith
  · have hMiddle := (h.between h').2 hAbove
    rw [abs_of_nonpos (by linarith : q - magnitude b' ≤ 0), abs_lt]
    constructor <;> linarith

theorem lt_range (h : Fits b) (hHolds : Holds b q) : q < (2 ^ 54 - 1) * 2 ^ 970 := by
  have hTop : 2 * quarter b ≤ 2 ^ 970 := by
    have hMost : b.exponent - 1 ≤ 970 := by
      have hExponent := h.most
      omega
    calc 2 * quarter b = (2 : ℚ) ^ (b.exponent - 1) := by
          rw [quarter, zpow_sub₀ two_ne_zero, zpow_sub₀ two_ne_zero]
          ring
      _ ≤ (2 : ℚ) ^ (970 : ℤ) := zpow_le_zpow_right₀ one_le_two hMost
      _ = 2 ^ 970 := zpow_natCast 2 970
  generalize (2 : ℚ) ^ 970 = top at hTop ⊢
  have hQuarter := quarter_pos b
  by_cases hEven : b.mantissa % 2 = 0
  · -- An even mantissa is not the greatest one.
    have hBelow : b.mantissa + 2 ≤ 2 ^ 53 := by
      have hLt := h.lt
      omega
    have hCast : (b.mantissa : ℚ) + 2 ≤ 2 ^ 53 := by exact_mod_cast hBelow
    have hUpper := hHolds.between.2
    rw [upper] at hUpper
    nlinarith
  · have hCast : (b.mantissa : ℚ) + 1 ≤ 2 ^ 53 := by exact_mod_cast h.lt
    rw [Holds, if_neg hEven, upper] at hHolds
    nlinarith

end Fits

theorem lower_pos (hPos : 0 < b.mantissa) : 0 < lower b := by
  have hOne : (1 : ℚ) ≤ b.mantissa := by exact_mod_cast hPos
  refine mul_pos ?_ (quarter_pos b)
  split <;> linarith

def word (x : Float) : Bits := x.toBits.toBitVec

theorem toNat_mantissa (x : Float) :
    (unpackMantissa (word x)).toNat = x.toBits.toNat % Decimal.hidden :=
  BitVec.extractLsb_toNat 51 0 x.toBits.toBitVec

theorem toNat_exponent (x : Float) :
    (unpackExponent (word x)).toNat = x.toBits.toNat / Decimal.hidden % 2048 := by
  refine (BitVec.extractLsb_toNat 62 52 x.toBits.toBitVec).trans ?_
  rw [Nat.shiftRight_eq_div_pow]
  rfl

theorem sign_eq (x : Float) :
    Sign.ofBitVec (unpackSign (word x)) = if isNegative x then .negative else .positive := by
  have hBit : (unpackSign (word x)).toNat = x.toBits.toNat / 2 ^ 63 % 2 := by
    refine (BitVec.extractLsb_toNat 63 63 x.toBits.toBitVec).trans ?_
    rw [Nat.shiftRight_eq_div_pow]
    rfl
  have hRange := x.toBits.toNat_lt
  have hZero : unpackSign (word x) = 0#1 ↔ (unpackSign (word x)).toNat = 0 :=
    BitVec.toNat_inj.symm
  unfold Sign.ofBitVec isNegative Decimal.hidden
  by_cases hNegative : 2 ^ 63 ≤ x.toBits.toNat
  · rw [if_neg (hZero.not.mpr (by omega)), if_pos (by simpa using hNegative)]
  · rw [if_pos (hZero.mpr (by omega)), if_neg (by simpa using hNegative)]

theorem binaryOf_of_zero (h : unpackExponent (word x) = 0#_) :
    binaryOf x = ⟨(unpackMantissa (word x)).toNat, -1074, false⟩ := by
  have hStored : x.toBits.toNat / Decimal.hidden % 2048 = 0 := by
    rw [← toNat_exponent, h]
    rfl
  rw [binaryOf, if_pos hStored, ← toNat_mantissa]

theorem binaryOf_of_normal (h : unpackExponent (word x) ≠ 0#_) :
    binaryOf x = ⟨2 ^ 52 + (unpackMantissa (word x)).toNat,
      (unpackExponent (word x)).toNat - 1075,
      (unpackMantissa (word x)).toNat == 0 && decide (1 < (unpackExponent (word x)).toNat)⟩ := by
  have hStored : x.toBits.toNat / Decimal.hidden % 2048 ≠ 0 := by
    rw [← toNat_exponent]
    exact fun hZero => h (BitVec.eq_of_toNat_eq hZero)
  rw [binaryOf, if_neg hStored, ← toNat_mantissa, ← toNat_exponent]
  rfl

theorem mantissa_parity (x : Float) : (binaryOf x).mantissa % 2 = x.toBits.toNat % 2 := by
  have hHidden : Decimal.hidden = 2 ^ 52 := rfl
  by_cases hExponent : unpackExponent (word x) = 0#_
  · rw [binaryOf_of_zero hExponent, toNat_mantissa, hHidden]
    exact Nat.mod_mod_of_dvd _ (by decide)
  · rw [binaryOf_of_normal hExponent, toNat_mantissa, hHidden]
    dsimp only
    omega

theorem fits_binaryOf (hx : x.isFinite = true) : Fits (binaryOf x) := by
  have hTop : unpackExponent (word x) ≠ -1#_ := isFinite_iff.mp hx
  have hNotTop : (unpackExponent (word x)).toNat ≠ 2047 :=
    fun hAll => hTop (BitVec.eq_of_toNat_eq hAll)
  have hRange : (unpackExponent (word x)).toNat < 2048 := (unpackExponent (word x)).isLt
  have hBound : (unpackMantissa (word x)).toNat < 2 ^ 52 := (unpackMantissa (word x)).isLt
  by_cases hExponent : unpackExponent (word x) = 0#_
  · rw [binaryOf_of_zero hExponent]
    refine ⟨⟨?_, le_rfl, fun hAbove => absurd rfl hAbove.ne⟩, ?_,
      ⟨nofun, fun hFoot => absurd rfl hFoot.2.ne⟩⟩
    · exact hBound.trans (by decide)
    · exact (by decide : (-1074 : ℤ) ≤ 971)
  · have hStored : (unpackExponent (word x)).toNat ≠ 0 :=
      fun hZero => hExponent (BitVec.eq_of_toNat_eq hZero)
    rw [binaryOf_of_normal hExponent]
    constructor
    · constructor <;> dsimp only <;> omega
    · dsimp only
      omega
    · simp only [Bool.and_eq_true, beq_iff_eq, decide_eq_true_eq]
      omega

theorem valueOf_finite (negative : Bool) {m : ℕ} {e : ℤ} {hPos : 0 < m} :
    valueOf (.finite (if negative then .negative else .positive) m e hPos) =
      signed negative (m * 2 ^ e) := by
  cases negative <;> rfl

theorem value_eq (hx : x.isFinite = true) :
    value x = signed (isNegative x) (magnitude (binaryOf x)) := by
  have hParts : Parts (word x) x.toModel.unpack := parts (isFinite_iff.mp hx)
  rw [value]
  generalize x.toModel.unpack = u at hParts
  cases hParts with
  | zero hExponent hMantissa =>
    have hZero : magnitude (binaryOf x) = 0 := by
      rw [binaryOf_of_zero hExponent, magnitude, hMantissa]
      exact zero_mul _
    rw [hZero, signed, neg_zero, ite_self]
    rfl
  | subnormal hExponent hMantissa he =>
    rw [sign_eq, valueOf_finite, binaryOf_of_zero hExponent, magnitude, hMantissa, he]
  | normal hExponent hMantissa he =>
    rw [sign_eq, valueOf_finite, binaryOf_of_normal hExponent, magnitude, hMantissa, he]

theorem abs_signed (negative : Bool) (q : ℚ) : |signed negative q| = |q| := by
  cases negative with
  | true => exact abs_neg q
  | false => rfl

theorem signed_sub (negative : Bool) (p q : ℚ) :
    signed negative p - signed negative q = signed negative (p - q) := by
  cases negative with
  | true => exact (neg_sub' p q).symm
  | false => rfl

theorem dist_signed {p q : ℚ} (hp : 0 < p) (hq : 0 ≤ q) (s t : Bool) :
    |p - q| ≤ |signed s p - signed t q| ∧
      (signed s q ≠ signed t q → |p - q| < |signed s p - signed t q|) := by
  by_cases hSame : s = t
  · subst hSame
    rw [signed_sub, abs_signed]
    exact ⟨le_rfl, fun hOther => absurd rfl hOther⟩
  · obtain rfl : t = !s := by cases s <;> cases t <;> simp_all
    have hOpposite : |signed s p - signed (!s) q| = p + q := by
      have hSum : signed s p - signed (!s) q = signed s (p + q) := by
        cases s with
        | true => exact (neg_add' p q).symm
        | false => exact sub_neg_eq_add p q
      rw [hSum, abs_signed, abs_of_pos (by linarith)]
    rw [hOpposite]
    refine ⟨abs_le.mpr (by constructor <;> linarith), fun hOther => abs_lt.mpr ?_⟩
    have hSome : q ≠ 0 := by
      rintro rfl
      exact hOther (by cases s <;> simp [signed])
    have hPos : 0 < q := lt_of_le_of_ne hq hSome.symm
    constructor <;> linarith

theorem magnitude_nonneg (b : Decimal.Binary) : 0 ≤ magnitude b := by
  rw [magnitude]
  positivity

theorem roundsTo_of_holds (hx : x.isFinite = true) (hPos : 0 < (binaryOf x).mantissa)
    (hHolds : Holds (binaryOf x) q) : RoundsTo (signed (isNegative x) q) x := by
  have hFits := fits_binaryOf hx
  have hSome : 0 < q := (lower_pos hPos).trans_le hHolds.between.1
  have hDist : |signed (isNegative x) q - value x| = |q - magnitude (binaryOf x)| := by
    rw [value_eq hx, signed_sub, abs_signed]
  refine ⟨hx, ?_, fun y hy => ?_, fun y hy hOther hSame => ?_⟩
  · rw [abs_signed, abs_of_pos hSome]
    exact hFits.lt_range hHolds
  · rw [hDist, value_eq hy]
    exact (hFits.dist_le (fits_binaryOf hy) hHolds).trans
      (dist_signed hSome (magnitude_nonneg _) _ _).1
  · by_contra hOdd
    rw [← mantissa_parity] at hOdd
    rw [hDist, value_eq hy] at hSame
    have hSigned := dist_signed hSome (magnitude_nonneg (binaryOf y)) (isNegative x) (isNegative y)
    by_cases hMagnitude : magnitude (binaryOf y) = magnitude (binaryOf x)
    · rw [value_eq hx, value_eq hy, ← hMagnitude] at hOther
      rw [← hMagnitude] at hSame
      exact (hSigned.2 hOther.symm).ne hSame
    · have hLess := hFits.dist_lt (fits_binaryOf hy) hHolds hOdd hMagnitude
      exact (hLess.trans_le hSigned.1).ne hSame

theorem roundsTo_zero (hx : x.isFinite = true) (hZero : (binaryOf x).mantissa = 0) :
    RoundsTo 0 x := by
  have hValue : value x = 0 := by
    rw [value_eq hx, magnitude, hZero, Nat.cast_zero, zero_mul, signed, neg_zero, ite_self]
  refine ⟨hx, by norm_num, fun y _ => ?_, fun y _ hOther hSame => absurd ?_ hOther⟩
  · rw [hValue, sub_self, abs_zero]
    exact abs_nonneg _
  · rw [hValue, sub_self, abs_zero, zero_sub, abs_neg] at hSame
    rw [hValue]
    exact abs_eq_zero.mp hSame.symm

end GatewayTelemetry.Binary
