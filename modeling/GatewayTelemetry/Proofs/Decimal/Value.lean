import GatewayTelemetry.Proofs.Decimal.Finite
import GatewayTelemetry.Proofs.Decimal.Order
import Mathlib.Algebra.Order.Field.Power
import Mathlib.Data.Rat.Floor
import Mathlib.Tactic.Ring

/-! # The exact value of a finite double

A finite double is a mantissa times a power of two. All mantissas above the least exponent have the
same number of bits, so doubles compare as their values do; and the integer made of a double is its
value without the fraction, kept within the range of a word.
-/

namespace GatewayTelemetry.Binary

open Float.Model hiding pack unpack mul ofNat ofScientific neg isFinite
open Float.Model.UnpackedFloat hiding normalize

def valueOf : UnpackedFloat → ℚ
  | .finite .negative m e _ => -(m * 2 ^ e)
  | .finite .positive m e _ => m * 2 ^ e
  | .zero _ | .infinity _ | .notANumber => 0

/-- The value of a number; of what is not finite, zero. -/
def value (x : Float) : ℚ := valueOf x.toModel.unpack

structure Canonical (m : ℕ) (e : ℤ) : Prop where
  lt : m < 2 ^ 53
  least : -1074 ≤ e
  full : -1074 < e → 2 ^ 52 ≤ m

theorem unpack_canonical {b : Bits} {s : Sign} {m : ℕ} {e : ℤ} {hPos : 0 < m}
    (h : unpack Format.binary64 b = .finite s m e hPos) : Canonical m e := by
  have hParts := parts (isFinite_iff.mp (by rw [h]; rfl))
  rw [h] at hParts
  have hBound : (unpackMantissa b).toNat < 2 ^ 52 := (unpackMantissa b).isLt
  cases hParts with
  | subnormal _ hMantissa he =>
    exact ⟨by omega, he.ge, fun hAbove => absurd he hAbove.ne'⟩
  | normal hExponent hMantissa he =>
    have hStored : (unpackExponent b).toNat ≠ 0 :=
      fun hNone => hExponent (BitVec.eq_of_toNat_eq hNone)
    exact ⟨by omega, by omega, fun _ => by omega⟩

variable {m m' : ℕ} {e e' : ℤ}

theorem scaled_lt (h : Canonical m e) (h' : Canonical m' e') (hLess : e < e' ∨ e = e' ∧ m < m') :
    (m : ℚ) * 2 ^ e < m' * 2 ^ e' := by
  rcases hLess with hExponent | ⟨rfl, hMantissa⟩
  · have hFull : 2 ^ 52 ≤ m' := h'.full (lt_of_le_of_lt h.least hExponent)
    calc (m : ℚ) * 2 ^ e < 2 ^ 53 * 2 ^ e := by
          gcongr
          exact_mod_cast h.lt
      _ = 2 ^ 52 * 2 ^ (e + 1) := by
          rw [zpow_add₀ two_ne_zero]
          ring
      _ ≤ m' * 2 ^ e' := by
          gcongr
          · exact_mod_cast hFull
          · norm_num
          · omega
  · gcongr

theorem scaled_pos (hPos : 0 < m) (e : ℤ) : (0 : ℚ) < m * 2 ^ e := by positivity

inductive Regular : UnpackedFloat → Prop
  | zero (s : Sign) : Regular (.zero s)
  | finite {s : Sign} {m : ℕ} {e : ℤ} {hPos : 0 < m} (h : Canonical m e) :
      Regular (.finite s m e hPos)

theorem regular_of_isFinite {x : Float} (h : x.isFinite = true) : Regular x.toModel.unpack := by
  have hFinite : x.toModel.unpack.isFinite = true := h
  cases hUnpacked : x.toModel.unpack with
  | finite s m e hPos => exact .finite (unpack_canonical hUnpacked)
  | zero s => exact .zero s
  | infinity s =>
    rw [hUnpacked] at hFinite
    cases hFinite
  | notANumber =>
    rw [hUnpacked] at hFinite
    cases hFinite

variable {u v : UnpackedFloat}

variable {x y : Float}

def truncate (q : ℚ) : ℤ := if 0 ≤ q then ⌊q⌋ else ⌈q⌉

def saturate (i : ℤ) : ℤ := max (-2 ^ 63) (min i (2 ^ 63 - 1))

theorem toInt_ofIntClamp (i : ℤ) : (Int64.ofIntClamp i).toInt = saturate i := by
  have hLow : Int64.minValue.toInt = -2 ^ 63 := rfl
  have hHigh : Int64.maxValue.toInt = 2 ^ 63 - 1 := rfl
  unfold Int64.ofIntClamp saturate
  split
  · split
    · rw [Int64.toInt_ofIntLE]
      omega
    · omega
  · omega

theorem floor_scaled (m : ℕ) (e : ℤ) :
    ⌊(m : ℚ) * 2 ^ e⌋ = (m * 2 ^ e.toNat / 2 ^ (-e).toNat : ℕ) := by
  obtain ⟨n, rfl | rfl⟩ := e.eq_nat_or_neg
  · have hNone : (-(n : ℤ)).toNat = 0 := by omega
    rw [zpow_natCast, Int.toNat_natCast, hNone, pow_zero, Nat.div_one]
    exact_mod_cast Int.floor_natCast (R := ℚ) (m * 2 ^ n)
  · have hNone : (-(n : ℤ)).toNat = 0 := by omega
    rw [zpow_neg, zpow_natCast, ← div_eq_mul_inv, hNone, neg_neg, Int.toNat_natCast, pow_zero,
      mul_one]
    exact_mod_cast Rat.floor_natCast_div_natCast m (2 ^ n)

theorem roundToInt_eq (s : Sign) (m : ℕ) (e : ℤ) :
    roundToInt s m e = s.apply ⌊(m : ℚ) * 2 ^ e⌋ := by
  have hShift : (0 - (e - (e.toNat : ℤ))).toNat = (-e).toNat := by omega
  simp only [roundToInt, decreaseExponent, shiftToExponent, shiftRight_mantissa,
    ofMantissaAndAccuracy_mantissa, Nat.shiftLeft_eq, Int.sub_zero, hShift, floor_scaled]

theorem roundToInt_eq_truncate {s : Sign} (hPos : 0 < m) :
    roundToInt s m e = truncate (valueOf (.finite s m e hPos)) := by
  have hMagnitude := scaled_pos hPos e
  rw [roundToInt_eq]
  cases s with
  | positive => exact (if_pos hMagnitude.le).symm
  | negative =>
    have hBelow : ¬ (0 : ℚ) ≤ -(m * 2 ^ e) := not_le.mpr (neg_lt_zero.mpr hMagnitude)
    show -⌊(m : ℚ) * 2 ^ e⌋ = truncate (-(m * 2 ^ e))
    rw [truncate, if_neg hBelow, Int.ceil_neg]

theorem toInt64_of_regular (h : Regular u) : u.toInt64.toInt = saturate (truncate (valueOf u)) := by
  rw [UnpackedFloat.toInt64, toInt_ofIntClamp]
  cases h with
  | zero s => rfl
  | @finite s m e hPos _ => exact congrArg saturate (roundToInt_eq_truncate hPos)

theorem toInt64_eq (h : x.isFinite = true) :
    x.toModel.toInt64.toInt = saturate (truncate (value x)) :=
  toInt64_of_regular (regular_of_isFinite h)

end GatewayTelemetry.Binary
