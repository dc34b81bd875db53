import GatewayTelemetry.Proofs.Decimal.Digits
import GatewayTelemetry.Proofs.Decimal.Nearest
import Mathlib.Data.Nat.Cast.Order.Field

/-! # The shortest decimal of a double

A point of a decimal grid is taken only if it is rounded to the double. The neighbours of the double
on the grid of seventeen digits are nearer to each other than the numbers are that it holds, so one
of them is held too, and the search ends there at the latest.
-/

namespace GatewayTelemetry.Decimal

open GatewayTelemetry.Binary (Fits Holds magnitude magnitude_eq quarter quarter_pos lower upper
  holds_of_between lower_pos)

variable {b : Binary} {n m c : ℕ} {e k : ℤ}

theorem zpow_eq_div {a : ℚ} (ha : a ≠ 0) (e : ℤ) : a ^ e = a ^ e.toNat / a ^ (-e).toNat := by
  rw [← zpow_natCast, ← zpow_natCast, ← zpow_sub₀ ha]
  congr 1
  omega

theorem scaled_pos (n : ℕ) (e k : ℤ) : 0 < (scaled n e k).2 :=
  Nat.mul_pos (Nat.pow_pos (by decide)) (Nat.pow_pos (by decide))

theorem scaled_fst (n m : ℕ) (e k : ℤ) :
    ((scaled n e k).1 : ℚ) * 10 ^ k = n * 2 ^ e * (scaled m e k).2 := by
  have hFirst : (scaled n e k).1 = n * 2 ^ e.toNat * 10 ^ (-k).toNat := rfl
  have hSecond : (scaled m e k).2 = 2 ^ (-e).toNat * 10 ^ k.toNat := rfl
  rw [hFirst, hSecond, zpow_eq_div two_ne_zero, zpow_eq_div (by norm_num : (10 : ℚ) ≠ 0)]
  push_cast
  field_simp

theorem le_scaled_iff : c * (scaled m e k).2 ≤ (scaled n e k).1 ↔ (c : ℚ) * 10 ^ k ≤ n * 2 ^ e := by
  have hDen : (0 : ℚ) < (scaled m e k).2 := by exact_mod_cast scaled_pos m e k
  have hTen : (0 : ℚ) < 10 ^ k := by positivity
  rw [← Nat.cast_le (α := ℚ), Nat.cast_mul, ← mul_le_mul_iff_left₀ hTen, scaled_fst n m,
    mul_right_comm, mul_le_mul_iff_left₀ hDen]

theorem scaled_le_iff : (scaled n e k).1 ≤ c * (scaled m e k).2 ↔ (n : ℚ) * 2 ^ e ≤ c * 10 ^ k := by
  have hDen : (0 : ℚ) < (scaled m e k).2 := by exact_mod_cast scaled_pos m e k
  have hTen : (0 : ℚ) < 10 ^ k := by positivity
  rw [← Nat.cast_le (α := ℚ), Nat.cast_mul, ← mul_le_mul_iff_left₀ hTen, scaled_fst n m,
    mul_right_comm (c : ℚ), mul_le_mul_iff_left₀ hDen]

def below (b : Binary) : ℕ := if b.narrow then 4 * b.mantissa - 1 else 4 * b.mantissa - 2

theorem lower_eq (hPos : 0 < b.mantissa) : lower b = below b * 2 ^ (b.exponent - 2) := by
  rw [lower, below, quarter]
  split <;> rw [Nat.cast_sub (by omega)] <;> push_cast <;> rfl

theorem upper_eq (b : Binary) : upper b = (4 * b.mantissa + 2 : ℕ) * 2 ^ (b.exponent - 2) := by
  rw [upper, quarter]
  push_cast
  rfl

def takes (b : Binary) (k : ℤ) (c : ℕ) : Bool :=
  let e := b.exponent - 2
  let den := (scaled (4 * b.mantissa) e k).2
  if b.mantissa % 2 = 0 then
    (scaled (below b) e k).1 ≤ c * den && c * den ≤ (scaled (4 * b.mantissa + 2) e k).1
  else (scaled (below b) e k).1 < c * den && c * den < (scaled (4 * b.mantissa + 2) e k).1

theorem takes_iff (hPos : 0 < b.mantissa) : takes b k c = true ↔ Holds b (c * 10 ^ k) := by
  rw [takes, Holds, lower_eq hPos, upper_eq]
  split
  · rw [Bool.and_eq_true, decide_eq_true_iff, decide_eq_true_iff]
    exact and_congr scaled_le_iff le_scaled_iff
  · rw [Bool.and_eq_true, decide_eq_true_iff, decide_eq_true_iff, ← not_le, ← not_le, ← not_le,
      ← not_le]
    exact and_congr (not_congr le_scaled_iff) (not_congr scaled_le_iff)

def floorPoint (b : Binary) (k : ℤ) : ℕ :=
  (scaled (4 * b.mantissa) (b.exponent - 2) k).1 / (scaled (4 * b.mantissa) (b.exponent - 2) k).2

theorem gridPoint?_eq (b : Binary) (k : ℤ) :
    gridPoint? b k =
      let low := floorPoint b k
      let num := (scaled (4 * b.mantissa) (b.exponent - 2) k).1
      let den := (scaled (4 * b.mantissa) (b.exponent - 2) k).2
      if (0 < low && takes b k low) && takes b k (low + 1) then
        if 2 * (num % den) < den then some low
        else if den < 2 * (num % den) then some (low + 1)
        else some (if low % 2 = 0 then low else low + 1)
      else if 0 < low && takes b k low then some low
      else if takes b k (low + 1) then some (low + 1)
      else none := rfl

theorem takes_of_gridPoint? (h : gridPoint? b k = some c) : takes b k c = true := by
  rw [gridPoint?_eq] at h
  dsimp only at h
  split at h
  · rename_i hBoth
    obtain ⟨hLow, hHigh⟩ := Bool.and_eq_true_iff.mp hBoth
    have hLow := (Bool.and_eq_true_iff.mp hLow).2
    split at h
    · cases h
      exact hLow
    · split at h
      · cases h
        exact hHigh
      · cases h
        split
        · exact hLow
        · exact hHigh
  · split at h
    · rename_i hLow
      cases h
      exact (Bool.and_eq_true_iff.mp hLow).2
    · split at h
      · rename_i hHigh
        cases h
        exact hHigh
      · cases h

theorem gridPoint?_isSome (h : 0 < floorPoint b k ∧ takes b k (floorPoint b k) = true ∨
    takes b k (floorPoint b k + 1) = true) : (gridPoint? b k).isSome := by
  rw [gridPoint?_eq]
  dsimp only
  split
  · split
    · rfl
    · split <;> rfl
  · split
    · rfl
    · rename_i hLow
      rcases h with hTaken | hTaken
      · exact absurd (Bool.and_eq_true_iff.mpr ⟨decide_eq_true hTaken.1, hTaken.2⟩) hLow
      · rw [if_pos hTaken]
        rfl

theorem magnitude_eq_scaled (b : Binary) :
    magnitude b = (4 * b.mantissa : ℕ) * 2 ^ (b.exponent - 2) := by
  rw [magnitude_eq, quarter]
  push_cast
  rfl

theorem floorPoint_le (b : Binary) (k : ℤ) : (floorPoint b k : ℚ) * 10 ^ k ≤ magnitude b := by
  rw [magnitude_eq_scaled, ← le_scaled_iff (m := 4 * b.mantissa)]
  exact Nat.div_mul_le_self _ _

theorem lt_floorPoint (b : Binary) (k : ℤ) :
    magnitude b < ((floorPoint b k + 1 : ℕ) : ℚ) * 10 ^ k := by
  rw [magnitude_eq_scaled, ← not_le, ← le_scaled_iff (m := 4 * b.mantissa), not_le,
    Nat.add_one_mul (floorPoint b k)]
  exact Nat.lt_div_mul_add (scaled_pos _ _ _)

theorem lower_lt (b : Binary) : lower b < magnitude b := by
  have hQuarter := quarter_pos b
  rw [lower, magnitude_eq]
  split <;> linarith

theorem lt_upper (b : Binary) : magnitude b < upper b := by
  have hQuarter := quarter_pos b
  rw [upper, magnitude_eq]
  linarith

/-- One of the neighbours on a grid is taken whose step is less than the gap between the ends. -/
theorem exists_gridPoint (hPos : 0 < b.mantissa) (hStep : (10 : ℚ) ^ k ≤ magnitude b)
    (hFine : (10 : ℚ) ^ k < upper b - lower b) : (gridPoint? b k).isSome := by
  have hLow := floorPoint_le b k
  have hHigh := lt_floorPoint b k
  have hTen : (0 : ℚ) < 10 ^ k := by positivity
  have hNext : ((floorPoint b k + 1 : ℕ) : ℚ) * 10 ^ k = floorPoint b k * 10 ^ k + 10 ^ k := by
    push_cast
    ring
  apply gridPoint?_isSome
  rw [takes_iff hPos, takes_iff hPos]
  rcases lt_or_ge (lower b) (floorPoint b k * 10 ^ k) with hInside | hOutside
  · refine .inl ⟨Nat.pos_of_ne_zero fun hZero => ?_, ?_⟩
    · rw [hNext, hZero, Nat.cast_zero, zero_mul, zero_add] at hHigh
      exact hHigh.not_ge hStep
    · exact holds_of_between hInside (hLow.trans_lt (lt_upper b))
  · refine .inr (holds_of_between ((lower_lt b).trans hHigh) ?_)
    rw [hNext]
    linarith

theorem leadingExponent_le {num den : ℕ} (hDen : 0 < den)
    (hLeast : (10 : ℚ) ^ (-400 : ℤ) ≤ num / den) :
    (10 : ℚ) ^ leadingExponent num den ≤ num / den := by
  have hCast : (0 : ℚ) < den := by exact_mod_cast hDen
  unfold leadingExponent
  split
  · rename_i hLe
    have hWhole : 0 < num / den := Nat.div_pos hLe hDen
    have hLength : (digitList (num / den)).length = (digitChars (num / den)).length :=
      (List.length_map _).symm
    have hFilled := List.length_pos_iff.mpr (digits_digitChars (num / den)).filled
    have hExponent : ((digitList (num / den)).length : ℤ) - 1 =
        ((digitChars (num / den)).length - 1 : ℕ) := by
      rw [hLength]
      omega
    rw [hExponent, zpow_natCast]
    calc (10 : ℚ) ^ ((digitChars (num / den)).length - 1) ≤ (num / den : ℕ) := by
          exact_mod_cast pow_length_digitChars hWhole
      _ ≤ num / den := Nat.cast_div_le
  · dsimp only
    rw [Int.negOfNat_eq]
    cases hFound : (List.range 400).find? fun j => den ≤ num * Nat.pow 10 j with
    | none => exact hLeast
    | some j =>
      have hTaken := List.find?_some hFound
      have hReached : den ≤ num * 10 ^ j := of_decide_eq_true hTaken
      have hCastReached : (den : ℚ) ≤ num * 10 ^ j := by exact_mod_cast hReached
      rw [Option.getD_some, zpow_neg, Int.ofNat_eq_natCast, zpow_natCast, le_div_iff₀ hCast,
        inv_mul_le_iff₀ (by positivity), mul_comm]
      exact hCastReached

theorem value_trimZeros (n : ℕ) (e : ℤ) :
    ((trimZeros n e).digits : ℚ) * 10 ^ (trimZeros n e).exponent = n * 10 ^ e := by
  fun_induction trimZeros n e with
  | case1 n e h ih =>
    have hTens : (n : ℚ) = (n / 10 : ℕ) * 10 := by
      exact_mod_cast (Nat.div_mul_cancel (Nat.dvd_of_mod_eq_zero h.2)).symm
    rw [ih, hTens, zpow_add₀ (by norm_num), zpow_one]
    ring
  | case2 n e h => rfl

theorem scaled_zero (b : Binary) :
    ((scaled b.mantissa b.exponent 0).1 : ℚ) / (scaled b.mantissa b.exponent 0).2 = magnitude b := by
  have hDen : ((scaled b.mantissa b.exponent 0).2 : ℚ) ≠ 0 := by
    exact_mod_cast (scaled_pos b.mantissa b.exponent 0).ne'
  have hEqual := scaled_fst b.mantissa b.mantissa b.exponent 0
  rw [zpow_zero, mul_one] at hEqual
  rw [div_eq_iff hDen, hEqual]
  rfl

theorem least_le_magnitude (h : Fits b) (hPos : 0 < b.mantissa) :
    (10 : ℚ) ^ (-400 : ℤ) ≤ magnitude b := by
  have hOne : (1 : ℚ) ≤ b.mantissa := by exact_mod_cast hPos
  have hPowers : (2 : ℕ) ^ 1074 ≤ 10 ^ 400 := by decide +kernel
  have hCast : (2 : ℚ) ^ (1074 : ℤ) ≤ 10 ^ (400 : ℤ) := by exact_mod_cast hPowers
  calc (10 : ℚ) ^ (-400 : ℤ) = (10 ^ (400 : ℤ))⁻¹ := zpow_neg 10 400
    _ ≤ (2 ^ (1074 : ℤ))⁻¹ := inv_anti₀ (by positivity) hCast
    _ = 2 ^ (-1074 : ℤ) := (zpow_neg 2 1074).symm
    _ ≤ 2 ^ b.exponent := zpow_le_zpow_right₀ one_le_two h.least
    _ ≤ magnitude b := le_mul_of_one_le_left (by positivity) hOne

theorem step_lt (h : Fits b) : magnitude b / 10 ^ 16 < upper b - lower b := by
  have hQuarter := quarter_pos b
  have hBound : (b.mantissa : ℚ) < 2 ^ 53 := by exact_mod_cast h.lt
  rw [upper, lower, magnitude_eq, div_lt_iff₀ (by positivity)]
  cases hNarrow : b.narrow with
  | true =>
    have hFoot : (b.mantissa : ℚ) = 2 ^ 52 := by exact_mod_cast (h.narrow.mp hNarrow).1
    rw [if_pos rfl, hFoot]
    nlinarith
  | false =>
    rw [if_neg Bool.false_ne_true]
    nlinarith

theorem shortest_holds (h : Fits b) (hPos : 0 < b.mantissa) :
    Holds b ((shortest b).digits * 10 ^ (shortest b).exponent) := by
  let num := (scaled b.mantissa b.exponent 0).1
  let den := (scaled b.mantissa b.exponent 0).2
  let top := leadingExponent num den
  let found : ℕ → Option Scientific := fun n =>
    (gridPoint? b (top - n)).map fun c => trimZeros c (top - n)
  have hShortest : shortest b = ((List.range 17).findSome? found).getD ⟨0, 0⟩ :=
    if_neg hPos.ne'
  have hTop : (10 : ℚ) ^ top ≤ magnitude b := by
    have hDen : 0 < den := scaled_pos _ _ _
    rw [← scaled_zero]
    refine leadingExponent_le hDen ?_
    rw [scaled_zero]
    exact least_le_magnitude h hPos
  have hLast : (found 16).isSome := by
    have hStep : (10 : ℚ) ^ (top - (16 : ℕ)) ≤ magnitude b / 10 ^ 16 := by
      rw [zpow_sub₀ (by norm_num), zpow_natCast]
      gcongr
    rw [Option.isSome_map]
    refine exists_gridPoint hPos (hStep.trans ?_) (hStep.trans_lt (step_lt h))
    exact div_le_self (GatewayTelemetry.Binary.magnitude_nonneg b) (by norm_num)
  have hSome : ((List.range 17).findSome? found).isSome :=
    List.findSome?_isSome_iff.mpr ⟨16, by decide, hLast⟩
  obtain ⟨s, hFound⟩ := Option.isSome_iff_exists.mp hSome
  obtain ⟨n, _, hPoint⟩ := List.exists_of_findSome?_eq_some hFound
  obtain ⟨c, hGrid, rfl⟩ := Option.map_eq_some_iff.mp hPoint
  rw [hShortest, hFound, Option.getD_some, value_trimZeros]
  exact (takes_iff hPos).mp (takes_of_gridPoint? hGrid)

theorem digits_shortest_pos (h : Fits b) (hPos : 0 < b.mantissa) : 0 < (shortest b).digits := by
  refine Nat.pos_of_ne_zero fun hZero => ?_
  have hLower := (shortest_holds h hPos).between.1
  rw [hZero, Nat.cast_zero, zero_mul] at hLower
  exact hLower.not_gt (lower_pos hPos)

end GatewayTelemetry.Decimal
