import GatewayTelemetry.Proofs.Cache.NodeWrite
import Mathlib.Data.Finset.Sort
import Mathlib.Data.String.Basic

/-! # Reconciliation is a difference of sets

The live names come as a list, in whatever order. What a reconciliation makes of the nodes and what
it reports depend on their set only: the differences of the two sets of names leave and arrive, and
the nodes in both stay.
-/

namespace GatewayTelemetry.Cache

theorem mem_reconcile (c : Cache) (live : List String) (name : String) :
    name ∈ (c.reconcile live).1.names ↔ name ∈ live := by
  rw [reconcile_names, List.mem_append, List.mem_filter, List.mem_filter, mem_ascending]
  by_cases hOld : name ∈ c.names <;> simp [hOld]

def arrivals (c : Cache) (live : Finset String) : List String := (live \ c.names.toFinset).sort

theorem ascending_filter_eq_arrivals (c : Cache) (live : List String) :
    ((ascending live).filter fun name => !c.names.contains name) = c.arrivals live.toFinset := by
  have hSorted := (ascending_sorted live).filter fun name => !c.names.contains name
  have hNodup := hSorted.imp String.ne_of_lt
  have hSet : ((ascending live).filter fun name => !c.names.contains name).toFinset =
      live.toFinset \ c.names.toFinset := by
    ext name
    simp [mem_ascending]
  rw [arrivals, ← hSet]
  exact ((List.toFinset_sort _ hNodup).mpr (hSorted.imp le_of_lt)).symm

theorem reconcile_eq (c : Cache) (live : List String) :
    c.reconcile live =
      ({ c with
          nodes := (c.nodes.filter fun n => n.name ∈ live.toFinset) ++
            (c.arrivals live.toFinset).map .fresh },
        ⟨c.arrivals live.toFinset, c.names.filter (· ∉ live.toFinset)⟩) := by
  rw [reconcile, ascending_filter_eq_arrivals]
  simp [names, List.filter_map, Function.comp_def]

theorem reconcile_congr (c : Cache) {live again : List String}
    (h : again.toFinset = live.toFinset) : c.reconcile again = c.reconcile live := by
  rw [reconcile_eq, reconcile_eq, h]

theorem reconcile_of_names {c : Cache} {live : List String}
    (h : ∀ name, name ∈ c.names ↔ name ∈ live) : c.reconcile live = (c, ⟨[], []⟩) := by
  have hNone : c.arrivals live.toFinset = [] := by
    have hEmpty : live.toFinset \ c.names.toFinset = ∅ := by
      ext name
      simp [h]
    rw [arrivals, hEmpty, Finset.sort_empty]
  have hNodes : (c.nodes.filter fun n => n.name ∈ live.toFinset) = c.nodes := by
    refine List.filter_eq_self.mpr fun n hn => ?_
    simpa [h] using (h n.name).mp (List.mem_map_of_mem hn)
  have hNames : c.names.filter (· ∉ live.toFinset) = [] := by
    refine List.filter_eq_nil_iff.mpr fun name hMem => ?_
    simpa using (h name).mp hMem
  rw [reconcile_eq, hNone, hNodes, hNames, List.map_nil, List.append_nil]

theorem node?_reconcile {c : Cache} (hDistinct : c.Distinct) (live : List String) (name : String) :
    (c.reconcile live).1.node? name =
      if name ∈ live then some ((c.node? name).getD (.fresh name)) else none := by
  have hApplied := node?_apply hDistinct (.reconcile live) name
  have hOnto : Operation.onto (.reconcile live) = id := Operation.onto_of_not_write rfl
  rw [show (c.reconcile live).1.node? name = (c.apply (.reconcile live)).1.node? name from rfl,
    hApplied, hOnto, Option.map_id]
  by_cases hLive : name ∈ live
  · have hStays : Operation.expels name (.reconcile live) = false := by
      simp [Operation.expels, hLive]
    have hBrought : name ∈ Operation.brought (.reconcile live) := mem_ascending.mpr hLive
    rw [hStays, if_pos hLive, if_neg Bool.false_ne_true, if_pos hBrought]
    by_cases hOld : name ∈ c.names
    · obtain ⟨n, hn⟩ := Option.isSome_iff_exists.mp ((c.node?_isSome name).mpr hOld)
      simp [hOld, hn]
    · have hNone : c.node? name = none := by
        rwa [← Option.not_isSome_iff_eq_none, node?_isSome]
      simp [hOld, hNone]
  · have hLeaves : Operation.expels name (.reconcile live) = true := by
      simp [Operation.expels, hLive]
    rw [hLeaves, if_neg hLive, if_pos rfl]

/-- A reconciliation takes the difference of the cached and the live names in both directions,
whatever the order of the live ones. Once more it does nothing. With other names it empties the
nodes that were cached before the first one and left in it, if they are live again, and keeps those
that stayed throughout. -/
theorem reconciles_to_difference {c : Cache} (hDistinct : c.Distinct) (live : List String) :
    c.reconcile live =
        ({ c with
            nodes := (c.nodes.filter fun n => n.name ∈ live.toFinset) ++
              ((live.toFinset \ c.names.toFinset).sort).map .fresh },
          ⟨(live.toFinset \ c.names.toFinset).sort, c.names.filter (· ∉ live.toFinset)⟩) ∧
      (∀ again : List String, again.toFinset = live.toFinset →
        c.reconcile again = c.reconcile live ∧
          (c.reconcile live).1.reconcile again = ((c.reconcile live).1, ⟨[], []⟩)) ∧
      ∀ next : List String, ∀ name ∈ c.names,
        ((c.reconcile live).1.reconcile next).1.node? name =
          if name ∈ next then
            if name ∈ live then c.node? name else some (.fresh name)
          else none := by
  refine ⟨c.reconcile_eq live, ?_, ?_⟩
  · intro again hSame
    refine ⟨c.reconcile_congr hSame, reconcile_of_names fun name => ?_⟩
    rw [mem_reconcile, ← List.mem_toFinset, ← List.mem_toFinset, hSame]
  · intro next name hOld
    obtain ⟨n, hn⟩ := Option.isSome_iff_exists.mp ((c.node?_isSome name).mpr hOld)
    rw [node?_reconcile (hDistinct.reconcile live), node?_reconcile hDistinct, hn]
    split
    · split <;> rfl
    · rfl

/-- One node stays, one leaves and comes back empty, and a new one is first listed behind the old
one, then in front of it. -/
theorem reconciles_to_difference_returning :
    let kept : NodeRecord := { NodeRecord.fresh "worker-b" with cpu := some ⟨4, []⟩ }
    let gone : NodeRecord := { NodeRecord.fresh "worker-a" with address := some "10.0.0.1:9100" }
    let c : Cache := ⟨[kept, gone], ∅⟩
    let live := ["worker-b", "worker-c"]
    let again := ["worker-c", "worker-b"]
    let next := ["worker-a", "worker-b"]
    c.Distinct ∧ again.toFinset = live.toFinset ∧
      (c.reconcile again).2 = ⟨["worker-c"], ["worker-a"]⟩ ∧
      (c.reconcile live).1.reconcile again = ((c.reconcile live).1, ⟨[], []⟩) ∧
      ((c.reconcile live).1.reconcile next).1.node? "worker-a" = some (.fresh "worker-a") ∧
      ((c.reconcile live).1.reconcile next).1.node? "worker-b" = some kept := by
  intro kept gone c live again next
  have hDistinct : c.Distinct := by simp [Distinct, names, c, kept, gone, NodeRecord.fresh]
  have hSame : again.toFinset = live.toFinset := by decide
  obtain ⟨_, hAgain, hNext⟩ := reconciles_to_difference hDistinct live
  refine ⟨hDistinct, hSame, ?_, (hAgain again hSame).2, hNext next "worker-a" (by decide),
    hNext next "worker-b" (by decide)⟩
  rw [(hAgain again hSame).1]
  decide

end GatewayTelemetry.Cache
