import GatewayTelemetry.Proofs.Cluster.Exporter
import Mathlib.Data.List.Perm.Basic

/-! # The exporter under every order of the pods

The pods of the cache are searched in whatever order the map gives them. Whether an exporter is
found and what its name is do not depend on that order. Its address does, as soon as pods of one
name in several namespaces tie: then each of them comes out under some order.
-/

namespace GatewayTelemetry.Cluster

variable {marker node : String} {pods order : List Pod} {p q : Pod}

structure LeastNamed (marker node : String) (pods : List Pod) (p : Pod) : Prop where
  mem : p ∈ pods
  exports : p.Exports marker node
  least : ∀ q ∈ pods, q.Exports marker node → p.name ≤ q.name

namespace LeastNamed

theorem same_name (hp : LeastNamed marker node pods p) (hq : LeastNamed marker node pods q) :
    p.name = q.name :=
  le_antisymm (hp.least q hq.mem hq.exports) (hq.least p hp.mem hp.exports)

theorem of_perm (hOrder : order.Perm pods) (h : LeastNamed marker node order p) :
    LeastNamed marker node pods p :=
  ⟨hOrder.mem_iff.mp h.mem, h.exports, fun q hq => h.least q (hOrder.mem_iff.mpr hq)⟩

end LeastNamed

theorem exporterAmong_eq_none_iff :
    exporterAmong marker node pods = none ↔ ∀ p ∈ pods, ¬ p.Exports marker node := by
  have hFound := exporterAmong_spec marker node pods
  cases hExporter : exporterAmong marker node pods with
  | none =>
    rw [hExporter] at hFound
    exact ⟨fun _ => hFound, fun _ => rfl⟩
  | some e =>
    rw [hExporter] at hFound
    obtain ⟨p, hp, hExports, _⟩ := hFound
    exact ⟨nofun, fun hNone => absurd hExports (hNone p hp)⟩

theorem leastNamed_of_exporterAmong {e : Exporter} (h : exporterAmong marker node pods = some e) :
    ∃ p, LeastNamed marker node pods p ∧ p.name = e.pod ∧ p.ip = some e.ip := by
  have hFound := exporterAmong_spec marker node pods
  rw [h] at hFound
  obtain ⟨p, hp, hExports, hName, hIp, hLeast⟩ := hFound
  exact ⟨p, ⟨hp, hExports, hLeast⟩, hName, hIp⟩

theorem candidates_cons (h : p.Exports marker node) {ip : String} (hIp : p.ip = some ip) :
    candidates marker node (p :: pods) = ⟨p.name, ip⟩ :: candidates marker node pods := by
  simp [candidates, isExporterOn_iff.mpr h, hIp]

/-- The first of the least ones stays. -/
theorem foldl_lesser_of_le {e : Exporter} {rest : List Exporter} (h : ∀ x ∈ rest, e.pod ≤ x.pod) :
    rest.foldl lesser e = e := by
  induction rest with
  | nil => rfl
  | cons x rest ih =>
    obtain ⟨hFirst, hRest⟩ := List.forall_mem_cons.mp h
    have hStays : lesser e x = e := if_neg (not_lt.mpr hFirst)
    rw [List.foldl_cons, hStays]
    exact ih hRest

theorem exporterAmong_cons (h : LeastNamed marker node (p :: pods) p) {ip : String}
    (hIp : p.ip = some ip) : exporterAmong marker node (p :: pods) = some ⟨p.name, ip⟩ := by
  rw [exporterAmong_eq, candidates_cons h.exports hIp]
  dsimp only
  rw [foldl_lesser_of_le]
  intro x hx
  obtain ⟨q, hq, hExports, hName, _⟩ := mem_candidates.mp hx
  rw [← hName]
  exact h.least q (List.mem_cons_of_mem p hq) hExports

theorem exists_order (h : LeastNamed marker node pods p) {ip : String} (hIp : p.ip = some ip) :
    ∃ order, order.Perm pods ∧ exporterAmong marker node order = some ⟨p.name, ip⟩ := by
  have hPerm : (p :: pods.erase p).Perm pods := (List.perm_cons_erase h.mem).symm
  exact ⟨_, hPerm, exporterAmong_cons (h.of_perm hPerm.symm) hIp⟩

theorem pod_of_perm (hOrder : order.Perm pods) :
    (exporterAmong marker node order).map (·.pod) = (exporterAmong marker node pods).map (·.pod) := by
  cases hFound : exporterAmong marker node order with
  | none =>
    have hNone : exporterAmong marker node pods = none :=
      exporterAmong_eq_none_iff.mpr fun p hp =>
        exporterAmong_eq_none_iff.mp hFound p (hOrder.mem_iff.mpr hp)
    rw [hNone]
  | some e =>
    obtain ⟨p, hp, hName, _⟩ := leastNamed_of_exporterAmong hFound
    cases hOther : exporterAmong marker node pods with
    | none => exact absurd hp.exports (exporterAmong_eq_none_iff.mp hOther p (hp.of_perm hOrder).mem)
    | some e' =>
      obtain ⟨q, hq, hName', _⟩ := leastNamed_of_exporterAmong hOther
      rw [Option.map_some, Option.map_some, ← hName, ← hName', (hp.of_perm hOrder).same_name hq]

theorem exporterAmong_perm_iff :
    (∀ order, order.Perm pods → exporterAmong marker node order = exporterAmong marker node pods) ↔
      ∀ p q, LeastNamed marker node pods p → LeastNamed marker node pods q → p.ip = q.ip := by
  constructor
  · intro hSame p q hp hq
    obtain ⟨ip, hIp⟩ := Option.isSome_iff_exists.mp hp.exports.ip
    obtain ⟨ip', hIp'⟩ := Option.isSome_iff_exists.mp hq.exports.ip
    obtain ⟨order, hOrder, hFound⟩ := exists_order hp hIp
    obtain ⟨order', hOrder', hFound'⟩ := exists_order hq hIp'
    have hBoth : some (⟨p.name, ip⟩ : Exporter) = some ⟨q.name, ip'⟩ :=
      calc some ⟨p.name, ip⟩ = exporterAmong marker node order := hFound.symm
        _ = exporterAmong marker node pods := hSame order hOrder
        _ = exporterAmong marker node order' := (hSame order' hOrder').symm
        _ = some ⟨q.name, ip'⟩ := hFound'
    rw [hIp, hIp']
    exact congrArg (·.map Exporter.ip) hBoth
  · intro hShared order hOrder
    have hPod : (exporterAmong marker node order).map (·.pod) =
        (exporterAmong marker node pods).map (·.pod) := pod_of_perm hOrder
    cases hFound : exporterAmong marker node order with
    | none =>
      rw [hFound] at hPod
      exact (Option.map_eq_none_iff.mp hPod.symm).symm
    | some e =>
      rw [hFound, Option.map_some] at hPod
      obtain ⟨e', hOther, hName⟩ := Option.map_eq_some_iff.mp hPod.symm
      obtain ⟨p, hp, _, hIp⟩ := leastNamed_of_exporterAmong hFound
      obtain ⟨q, hq, _, hIp'⟩ := leastNamed_of_exporterAmong hOther
      have hSame : some e.ip = some e'.ip := by
        rw [← hIp, ← hIp']
        exact hShared p q (hp.of_perm hOrder) hq
      rw [hOther, Option.some.injEq, Exporter.mk.injEq]
      exact ⟨hName.symm, Option.some.inj hSame⟩

/-- Under every order of the cached pods, none is found just if no pod exports; else it is one that
exports with the least name, and that name is the same under all orders. The addresses that come out
are those of all such pods, so the address too is the same under all orders exactly when these pods
share it. -/
theorem exporter_in_any_order (c : Cluster) (marker node : String) :
    (∀ order, order.Perm c.pods.values →
      (exporterAmong marker node order = none ↔
        ∀ p ∈ c.pods.values, ¬ p.Exports marker node) ∧
      (∀ e, exporterAmong marker node order = some e →
        ∃ p, LeastNamed marker node c.pods.values p ∧ p.name = e.pod ∧ p.ip = some e.ip) ∧
      (exporterAmong marker node order).map (·.pod) = (c.exporter? marker node).map (·.pod)) ∧
    (∀ p ip, LeastNamed marker node c.pods.values p → p.ip = some ip →
      ∃ order, order.Perm c.pods.values ∧ exporterAmong marker node order = some ⟨p.name, ip⟩) ∧
    ((∀ order, order.Perm c.pods.values →
      exporterAmong marker node order = c.exporter? marker node) ↔
        ∀ p q, LeastNamed marker node c.pods.values p → LeastNamed marker node c.pods.values q →
          p.ip = q.ip) := by
  refine ⟨fun order hOrder => ⟨?_, ?_, pod_of_perm hOrder⟩, fun p ip hp hIp => exists_order hp hIp, ?_⟩
  · rw [exporterAmong_eq_none_iff]
    exact ⟨fun hNone p hp => hNone p (hOrder.mem_iff.mpr hp),
      fun hNone p hp => hNone p (hOrder.mem_iff.mp hp)⟩
  · intro e hFound
    obtain ⟨p, hp, hName, hIp⟩ := leastNamed_of_exporterAmong hFound
    exact ⟨p, hp.of_perm hOrder, hName, hIp⟩
  · exact exporterAmong_perm_iff

/-- The pods are searched from the last key on; a pod that has stopped has the least name. -/
theorem exporter_in_any_order_reversed :
    let pod := fun name ip phase => (⟨name, "east", some "n1", some ip, some phase⟩ : Pod)
    let stopped := pod "node-exporter-0" "10.0.0.1" "Failed"
    let first := pod "node-exporter-a" "10.0.0.2" "Running"
    let second := pod "node-exporter-b" "10.0.0.3" "Running"
    let c := ((empty.insertPod second).insertPod stopped).insertPod first
    let order := [second, first, stopped]
    order.Perm c.pods.values ∧
      (exporterAmong "node-exporter" "n1" order).map (·.pod) = some "node-exporter-a" := by
  intro pod stopped first second c order
  have hOrder : order.Perm c.pods.values := by
    have hValues : c.pods.values = order.reverse := by decide +kernel
    rw [hValues]
    exact order.reverse_perm.symm
  refine ⟨hOrder, ?_⟩
  rw [((exporter_in_any_order c "node-exporter" "n1").1 order hOrder).2.2]
  decide +kernel

/-- Two pods of one name run on the node, in two namespaces. Both orders find that name, and each
finds an address of its own. -/
theorem address_of_order :
    let east : Pod := ⟨"node-exporter", "east", some "n1", some "10.0.0.1", some "Running"⟩
    let west : Pod := ⟨"node-exporter", "west", some "n1", some "10.0.0.2", some "Running"⟩
    let c := (empty.insertPod east).insertPod west
    [east, west].Perm c.pods.values ∧ [west, east].Perm c.pods.values ∧
      exporterAmong "node-exporter" "n1" [east, west] = some ⟨"node-exporter", "10.0.0.1"⟩ ∧
      exporterAmong "node-exporter" "n1" [west, east] = some ⟨"node-exporter", "10.0.0.2"⟩ := by
  intro east west c
  have hValues : c.pods.values = [east, west] := by decide +kernel
  rw [hValues]
  exact ⟨.refl _, .swap east west [], by decide +kernel, by decide +kernel⟩

end GatewayTelemetry.Cluster
