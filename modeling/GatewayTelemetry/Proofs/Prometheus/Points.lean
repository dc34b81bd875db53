import GatewayTelemetry.Prometheus.Usage
import GatewayTelemetry.Proofs.Decimal.Value

/-! # What raw values denote

Values come as texts. A text denotes one finite number or none at all: what denotes none is left out
of the samples, and is zero as a total and as a rate.
-/

namespace GatewayTelemetry.Prometheus

open Binary

/-- The text is that of a finite number. -/
def Denotes (raw : String) (x : Float) : Prop :=
  Decimal.readFloat? raw.toList = some x ∧ x.isFinite = true

theorem finiteValue?_eq_some_iff {raw : String} {x : Float} :
    finiteValue? raw = some x ↔ Denotes raw x := Option.filter_eq_some_iff

theorem finiteValue?_eq_none_iff {raw : String} :
    finiteValue? raw = none ↔ ∀ x, ¬ Denotes raw x := by
  simp only [Option.eq_none_iff_forall_ne_some, Ne, finiteValue?_eq_some_iff]

inductive FinitePoints : List RawPoint → List Sample → Prop
  | nil : FinitePoints [] []
  | keep {time x : Float} {raw : String} {values : List RawPoint} {samples : List Sample} :
      Denotes raw x → FinitePoints values samples →
        FinitePoints ((time, raw) :: values) ((time, x) :: samples)
  | drop {time : Float} {raw : String} {values : List RawPoint} {samples : List Sample} :
      (∀ x, ¬ Denotes raw x) → FinitePoints values samples →
        FinitePoints ((time, raw) :: values) samples

theorem finitePoints_samplesOf (values : List RawPoint) :
    FinitePoints values (samplesOf values) := by
  induction values with
  | nil => exact .nil
  | cons p rest ih =>
    obtain ⟨time, raw⟩ := p
    rw [samplesOf, List.filterMap_cons, ← samplesOf]
    cases hValue : finiteValue? raw with
    | none => exact .drop (finiteValue?_eq_none_iff.mp hValue) ih
    | some x => exact .keep (finiteValue?_eq_some_iff.mp hValue) ih

/-- The total is the number without its fraction, within the range of a word. -/
def IsTotal (raw : String) (total : Int64) : Prop :=
  (∃ x, Denotes raw x ∧ total.toInt = saturate (truncate (value x))) ∨
    (∀ x, ¬ Denotes raw x) ∧ total = 0

theorem isTotal_totalOf (raw : String) : IsTotal raw (totalOf raw) := by
  unfold totalOf
  cases hValue : finiteValue? raw with
  | none => exact .inr ⟨finiteValue?_eq_none_iff.mp hValue, rfl⟩
  | some x =>
    have hDenotes := finiteValue?_eq_some_iff.mp hValue
    exact .inl ⟨x, hDenotes, toInt64_eq hDenotes.2⟩

end GatewayTelemetry.Prometheus
