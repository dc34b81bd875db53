import Mathlib.Data.Prod.Lex
import Mathlib.Data.Int.Cast.Lemmas
import Mathlib.Data.Int.Order.Basic

/-! # The order of finite doubles

Of two finite doubles the comparisons tell the sign, then the exponent, then the mantissa, both of
the latter the other way round below zero. So they are those of a linear order, in which the two
zeros share a place.
-/

namespace GatewayTelemetry.Binary

open Float.Model

/-- The place of a finite double: by sign, exponent and mantissa. -/
def placeOf : UnpackedFloat → ℤ ×ₗ ℤ ×ₗ ℤ
  | .finite .negative m e _ => toLex (-1, toLex (-e, -(m : ℤ)))
  | .finite .positive m e _ => toLex (1, toLex (e, (m : ℤ)))
  | .zero _ | .infinity _ | .notANumber => toLex (0, toLex (0, 0))

theorem then_eq_lt_iff {e e' : ℤ} {m m' : ℕ} :
    (compare e e').then (compare m m') = .lt ↔ e < e' ∨ e = e' ∧ m < m' := by
  rw [Ordering.then_eq_lt, compare_lt_iff_lt, compare_eq_iff_eq, compare_lt_iff_lt]

theorem then_eq_gt_iff {e e' : ℤ} {m m' : ℕ} :
    (compare e e').then (compare m m') = .gt ↔ e' < e ∨ e = e' ∧ m' < m := by
  rw [Ordering.then_eq_gt, compare_gt_iff_gt, compare_eq_iff_eq, compare_gt_iff_gt]

variable {u v : UnpackedFloat}

theorem lt_iff_placeOf (hu : u.isFinite = true) (hv : v.isFinite = true) :
    u.lt v = true ↔ placeOf u < placeOf v := by
  unfold UnpackedFloat.lt
  rcases u with s | _ | s | ⟨_ | _, m, e, hm⟩
  · cases hu
  · cases hu
  all_goals
    rcases v with s' | _ | s' | ⟨_ | _, m', e', hm'⟩
    · cases hv
    · cases hv
    all_goals
      dsimp only [UnpackedFloat.compare, placeOf]
      simp [Prod.Lex.toLex_lt_toLex, then_eq_lt_iff, then_eq_gt_iff]

theorem beq_iff_placeOf (hu : u.isFinite = true) (hv : v.isFinite = true) :
    u.beq v = true ↔ placeOf u = placeOf v := by
  unfold UnpackedFloat.beq
  rcases u with s | _ | s | ⟨_ | _, m, e, hm⟩
  · cases hu
  · cases hu
  all_goals
    rcases v with s' | _ | s' | ⟨_ | _, m', e', hm'⟩
    · cases hv
    · cases hv
    all_goals
      dsimp only [UnpackedFloat.compare, placeOf]
      simp

def place (x : Float) : ℤ ×ₗ ℤ ×ₗ ℤ := placeOf x.toModel.unpack

variable {x y : Float}

theorem lt_iff_place (hx : x.isFinite = true) (hy : y.isFinite = true) :
    x < y ↔ place x < place y := by
  show decide (x.toModel < y.toModel) = true ↔ _
  rw [decide_eq_true_iff]
  exact lt_iff_placeOf hx hy

theorem beq_iff_place (hx : x.isFinite = true) (hy : y.isFinite = true) :
    (x == y) = true ↔ place x = place y := beq_iff_placeOf hx hy

end GatewayTelemetry.Binary
