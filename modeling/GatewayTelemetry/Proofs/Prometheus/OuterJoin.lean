import GatewayTelemetry.Proofs.Prometheus.Join
import GatewayTelemetry.Proofs.Prometheus.Points

/-! # The outer join of totals and usages

Every address with a total or with a series is reported once, with the last total and the last
series there are for it. Without a second one of either kind for an address there is nothing for
the order of the answers to decide.
-/

namespace GatewayTelemetry.Prometheus

def addresses {α : Type} (labels : α → Labels) (answers : List α) : List String :=
  answers.filterMap fun x => addressOf (labels x)

section Last

variable {α : Type} {labels : α → Labels} {answers answers' : List α}

theorem lastFor_isSome (labels : α → Labels) (answers : List α) (address : String) :
    (lastFor labels answers address).isSome ↔ address ∈ addresses labels answers := by
  simp [lastFor, addresses, List.find?_isSome]

theorem lastFor_eq_some_iff (hOnce : (addresses labels answers).Nodup) {address : String} {x : α} :
    lastFor labels answers address = some x ↔
      x ∈ answers ∧ addressOf (labels x) = some address := by
  rw [lastFor, find?_eq_some_iff_mem, List.mem_reverse, decide_eq_true_iff]
  intro y hy z hz hLabel hLabel'
  exact eq_of_nodup_filterMap hOnce (List.mem_reverse.mp hy) (List.mem_reverse.mp hz)
    (of_decide_eq_true hLabel) (of_decide_eq_true hLabel')

theorem lastFor_perm (hOnce : (addresses labels answers).Nodup) (hPerm : answers'.Perm answers) :
    lastFor labels answers' = lastFor labels answers := by
  have hOnce' : (addresses labels answers').Nodup := (hPerm.filterMap _).nodup_iff.mpr hOnce
  funext address
  ext x
  rw [lastFor_eq_some_iff hOnce', lastFor_eq_some_iff hOnce, hPerm.mem_iff]

end Last

/-- What is reported for some totals and series: one usage for each of their addresses. -/
structure OuterJoin (totals : List InstantSample) (usages : List RangeSeries)
    (reports : List (Reported Usage)) : Prop where
  ascending : Reported.Ascending reports
  mem_addresses : ∀ address, address ∈ reports.map (·.address) ↔
    address ∈ addresses InstantSample.labels totals ∨ address ∈ addresses RangeSeries.labels usages
  total : ∀ r ∈ reports,
    match lastFor InstantSample.labels totals r.address with
    | some s => IsTotal s.value.2 r.metric.total
    | none => r.metric.total = 0
  samples : ∀ r ∈ reports,
    match lastFor RangeSeries.labels usages r.address with
    | some s => FinitePoints s.values r.metric.samples
    | none => r.metric.samples = []

variable (totals : List InstantSample) (usages : List RangeSeries)

theorem usageFor_isSome (address : String) :
    (usageFor totals usages address).isSome ↔
      address ∈ addresses InstantSample.labels totals ∨
        address ∈ addresses RangeSeries.labels usages := by
  rw [← lastFor_isSome, ← lastFor_isSome, usageFor]
  cases lastFor InstantSample.labels totals address <;>
    cases lastFor RangeSeries.labels usages address <;> simp

theorem usageFor_eq {address : String} {u : Usage} (h : usageFor totals usages address = some u) :
    u = ⟨((lastFor InstantSample.labels totals address).map fun s => totalOf s.value.2).getD 0,
      ((lastFor RangeSeries.labels usages address).map fun s => samplesOf s.values).getD []⟩ := by
  unfold usageFor at h
  split at h
  · cases h
  · exact (Option.some.inj h).symm

theorem joinUsages_ascending : Reported.Ascending (joinUsages totals usages) :=
  Reported.ascending_entries _ _

theorem outerJoin_joinUsages : OuterJoin totals usages (joinUsages totals usages) := by
  have hMetric : ∀ r ∈ joinUsages totals usages,
      usageFor totals usages r.address = some r.metric := by
    intro r hr
    rw [← find?_joinUsages]
    exact (Reported.find?_eq_some_iff (joinUsages_ascending totals usages)).mpr hr
  refine ⟨joinUsages_ascending totals usages, ?_, ?_, ?_⟩
  · intro address
    rw [Reported.mem_addresses_iff, find?_joinUsages, usageFor_isSome]
  · intro r hr
    rw [usageFor_eq totals usages (hMetric r hr)]
    cases lastFor InstantSample.labels totals r.address with
    | none => rfl
    | some s => exact isTotal_totalOf s.value.2
  · intro r hr
    rw [usageFor_eq totals usages (hMetric r hr)]
    cases lastFor RangeSeries.labels usages r.address with
    | none => rfl
    | some s => exact finitePoints_samplesOf s.values

/-- Totals and usages are joined by address on both sides; where no address comes twice on a side,
in whatever order they come. -/
theorem joins_on_both_sides :
    OuterJoin totals usages (joinUsages totals usages) ∧
      ((addresses InstantSample.labels totals).Nodup →
        (addresses RangeSeries.labels usages).Nodup →
          ∀ {totals' : List InstantSample} {usages' : List RangeSeries},
            totals'.Perm totals → usages'.Perm usages →
              joinUsages totals' usages' = joinUsages totals usages) := by
  refine ⟨outerJoin_joinUsages totals usages, ?_⟩
  intro hTotals hUsages totals' usages' hTotalsPerm hUsagesPerm
  refine Reported.ext_find? (joinUsages_ascending _ _) (joinUsages_ascending _ _) ?_
  funext address
  rw [find?_joinUsages, find?_joinUsages, usageFor, usageFor, lastFor_perm hTotals hTotalsPerm,
    lastFor_perm hUsages hUsagesPerm]

/-- Answers of three addresses, one of them with a total and a series, and one total of none. -/
theorem joins_on_both_sides_apart :
    let ofAddress (address : String) : Labels := Keyed.ofList [("instance", address)]
    let totals : List InstantSample :=
      [⟨ofAddress "10.0.0.2:9100", (0, "1e300")⟩, ⟨∅, (0, "7")⟩,
        ⟨ofAddress "10.0.0.1:9100", (0, "-4.9")⟩]
    let usages : List RangeSeries :=
      [⟨ofAddress "10.0.0.3:9100", [(1, "0.5"), (2, "NaN")]⟩, ⟨ofAddress "10.0.0.1:9100", []⟩]
    (addresses InstantSample.labels totals).Nodup ∧ (addresses RangeSeries.labels usages).Nodup ∧
      joinUsages totals.reverse usages.reverse = joinUsages totals usages ∧
      ((joinUsages totals usages).map fun r => (r.address, r.metric.total)) =
        [("10.0.0.1:9100", -4), ("10.0.0.2:9100", Int64.maxValue), ("10.0.0.3:9100", 0)] := by
  intro ofAddress totals usages
  have hTotals : (addresses InstantSample.labels totals).Nodup := by decide +kernel
  have hUsages : (addresses RangeSeries.labels usages).Nodup := by decide +kernel
  refine ⟨hTotals, hUsages, ?_, by decide +kernel⟩
  exact (joins_on_both_sides totals usages).2 hTotals hUsages totals.reverse_perm
    usages.reverse_perm

end GatewayTelemetry.Prometheus
