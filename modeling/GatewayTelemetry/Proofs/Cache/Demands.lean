import GatewayTelemetry.Proofs.Cache.EndpointWrite
import GatewayTelemetry.Proofs.Cache.NodeWrite
import GatewayTelemetry.Proofs.Record.ReadBack

/-! # Demands on cached data

Whatever is asked of each usage and each latency that is written, the cache meets it as long as
every operation does. Along with it, names are not empty, each endpoint stands under its own name,
and the points of its series have finite timestamps.
-/

namespace GatewayTelemetry

theorem Cache.EndpointWrite.dated_onto {w : EndpointWrite} (hFinite : w.timestamp.isFinite = true)
    {e : Endpoint} (h : e.Dated) : (w.onto e).Dated := by
  have hPoint : ∀ {β : Type} (o : Option β), ∀ q ∈ o.map (w.timestamp, ·), q.1.isFinite = true := by
    intro β o q hq
    obtain ⟨_, _, rfl⟩ := Option.map_eq_some_iff.mp hq
    exact hFinite
  exact ⟨h.latencies.pushPoint (hPoint _), h.sent.pushPoint (hPoint _),
    h.received.pushPoint (hPoint _)⟩

structure Demands where
  cpu : Usage → Prop
  memory : Usage → Prop
  network : NetworkUsage → Prop
  latency : Float → Prop

namespace Demands

structure OnNode (d : Demands) (n : NodeRecord) : Prop where
  name_ne : n.name ≠ ""
  cpu : ∀ u ∈ n.cpu, d.cpu u
  memory : ∀ u ∈ n.memory, d.memory u
  network : ∀ u ∈ n.network, d.network u

structure OnEndpoint (d : Demands) (name : String) (e : Endpoint) : Prop where
  name_eq : e.name = name
  name_ne : name ≠ ""
  dated : e.Dated
  latencies : ∀ q ∈ e.latencies.points, d.latency q.2

def OnMap (d : Demands) (m : EndpointMap) : Prop := ∀ x ∈ m.entries, d.OnEndpoint x.1 x.2

structure OnCache (d : Demands) (c : Cache) : Prop where
  distinct : c.Distinct
  nodes : ∀ n ∈ c.nodes, d.OnNode n
  endpoints : ∀ name e, c.endpoint? name = some e → d.OnEndpoint name e

structure OnOperation (d : Demands) (op : Cache.Operation) : Prop where
  brought : "" ∉ op.brought
  cpu : ∀ w ∈ op.nodeWrite?, ∀ u ∈ w.cpu, d.cpu u
  memory : ∀ w ∈ op.nodeWrite?, ∀ u ∈ w.memory, d.memory u
  network : ∀ w ∈ op.nodeWrite?, ∀ u ∈ w.network, d.network u
  endpoint : ∀ w ∈ op.write?, w.endpoint ≠ ""
  latency : ∀ w ∈ op.write?, ∀ x ∈ w.latency, d.latency x

variable {d : Demands} {c : Cache} {op : Cache.Operation}

theorem OnOperation.of_nodeWrite {w : Cache.NodeWrite} (h : op.nodeWrite? = some w)
    (hCpu : ∀ u ∈ w.cpu, d.cpu u) (hMemory : ∀ u ∈ w.memory, d.memory u)
    (hNetwork : ∀ u ∈ w.network, d.network u) : d.OnOperation op := by
  have hOnly : op.brought = [] ∧ op.write? = none := by
    cases op <;> cases h <;> exact ⟨rfl, rfl⟩
  obtain ⟨hBrought, hWrite⟩ := hOnly
  constructor
  · simp [hBrought]
  · rintro _ hw
    cases h.symm.trans hw
    exact hCpu
  · rintro _ hw
    cases h.symm.trans hw
    exact hMemory
  · rintro _ hw
    cases h.symm.trans hw
    exact hNetwork
  · simp [hWrite]
  · simp [hWrite]

theorem onNode_fresh {name : String} (h : name ≠ "") : d.OnNode (.fresh name) :=
  ⟨h, nofun, nofun, nofun⟩

theorem OnNode.onto {n : NodeRecord} (h : d.OnNode n) (hOp : d.OnOperation op) :
    d.OnNode (op.onto n) := by
  have hOr : ∀ {α : Type} {asked : α → Prop} {new old : Option α}, (∀ a ∈ new, asked a) →
      (∀ a ∈ old, asked a) → ∀ a ∈ new.or old, asked a := by
    intro α asked new old hNew hOld a ha
    cases new with
    | none => exact hOld a ha
    | some b => exact hNew a ha
  unfold Cache.Operation.onto
  cases hWrite : op.nodeWrite? with
  | none => exact h
  | some w =>
    dsimp only
    split
    · exact ⟨h.name_ne, hOr (hOp.cpu w hWrite) h.cpu, hOr (hOp.memory w hWrite) h.memory,
        hOr (hOp.network w hWrite) h.network⟩
    · exact h

theorem onEndpoint_fresh {name : String} (h : name ≠ "") : d.OnEndpoint name (.fresh name) :=
  ⟨rfl, h, Endpoint.dated_fresh name, nofun⟩

theorem OnEndpoint.onto {name : String} {e : Endpoint} (h : d.OnEndpoint name e)
    {w : Cache.EndpointWrite} (hFinite : w.timestamp.isFinite = true)
    (hLatency : ∀ x ∈ w.latency, d.latency x) : d.OnEndpoint name (w.onto e) where
  name_eq := h.name_eq
  name_ne := h.name_ne
  dated := Cache.EndpointWrite.dated_onto hFinite h.dated
  latencies q hq := by
    rcases Series.mem_pushPoint hq with hOld | hNew
    · exact h.latencies q hOld
    · obtain ⟨x, hx, rfl⟩ := Option.map_eq_some_iff.mp hNew
      exact hLatency x hx

theorem onCache_empty : d.OnCache .empty :=
  ⟨Cache.distinct_empty, nofun, nofun⟩

theorem OnCache.apply (h : d.OnCache c) (hOp : d.OnOperation op) : d.OnCache (c.apply op).1 where
  distinct := h.distinct.apply op
  nodes n hn := by
    rw [Cache.apply_nodes h.distinct] at hn
    rcases List.mem_append.mp hn with hKept | hNew
    · obtain ⟨m, hm, rfl⟩ := List.mem_map.mp hKept
      exact (h.nodes m (List.mem_filter.mp hm).1).onto hOp
    · obtain ⟨name, hName, rfl⟩ := List.mem_map.mp hNew
      have hBrought : name ∈ op.brought := (List.mem_filter.mp hName).1
      exact onNode_fresh fun hEmpty => hOp.brought (hEmpty ▸ hBrought)
  endpoints name e he := by
    rw [Cache.endpoint?_apply] at he
    split at he
    · cases he
    · split at he
      · rename_i w hWrite
        obtain ⟨hWritten, hName⟩ := Cache.Operation.writeTo?_eq_some_iff.mp hWrite
        split at he
        · rename_i hOk
          cases he
          have hFinite : w.timestamp.isFinite = true := by
            rcases c.apply_write hWritten with ⟨hFinite, _⟩ | ⟨_, hFailed⟩
            · exact hFinite
            · rw [hFailed] at hOk
              cases hOk
          have hOld : d.OnEndpoint name ((c.endpoint? name).getD (.fresh name)) := by
            cases hFound : c.endpoint? name with
            | none => exact onEndpoint_fresh (hName ▸ hOp.endpoint w hWritten)
            | some old => exact h.endpoints name old hFound
          exact hOld.onto hFinite (hOp.latency w hWritten)
        · exact h.endpoints name e he
      · exact h.endpoints name e he

theorem OnMap.dated {m : EndpointMap} (h : d.OnMap m) : m.Dated :=
  fun x hx => ⟨(h x hx).name_eq, (h x hx).name_ne, (h x hx).dated⟩

theorem OnCache.onMap (h : d.OnCache c) : d.OnMap c.endpoints := by
  rintro ⟨name, e⟩ he
  exact h.endpoints name e ((Keyed.find?_eq_some_iff c.endpoints name e).mpr he)

theorem OnCache.dated (h : d.OnCache c) : EndpointMap.Dated c.endpoints := h.onMap.dated

def finite : Demands := ⟨Usage.Finite, Usage.Finite, NetworkUsage.Finite, fun _ => True⟩

def proper : Demands where
  cpu u := 0 ≤ u.total
  memory u := 0 ≤ u.total
  network u := u.device ≠ ""
  latency x := x.isFinite = true

theorem OnNode.finite {n : NodeRecord} (h : finite.OnNode n) : n.Finite :=
  ⟨h.cpu, h.memory, h.network⟩

theorem OnNode.sound {n : NodeRecord} (h : proper.OnNode n) : n.Sound :=
  ⟨h.cpu, h.memory, h.network⟩

theorem OnMap.measured {m : EndpointMap} (h : proper.OnMap m) : m.measured = true :=
  List.all_eq_true.mpr fun x hx => List.all_eq_true.mpr (h x hx).latencies

theorem OnCache.measured (h : proper.OnCache c) : EndpointMap.measured c.endpoints = true :=
  h.onMap.measured

end Demands

end GatewayTelemetry
