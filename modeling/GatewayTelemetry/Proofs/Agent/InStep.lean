import GatewayTelemetry.Proofs.Agent.Creation
import GatewayTelemetry.Proofs.Agent.Kept
import GatewayTelemetry.Proofs.Collection.Sample

/-! # Byte series in step

A multi-cluster cycle adds a point to both byte series of its remote or to neither, at one time. A
full series drops its oldest point, and both are full at once. So where nothing else writes to
endpoints, the two series of each have the same times, whatever is removed and whatever remote is
configured.
-/

namespace GatewayTelemetry

namespace Series

variable {α β : Type}

def times (s : Series α) : List Float := s.points.map (·.1)

theorem times_push (s : Series α) (v : α) (t : Float) :
    (s.push v t).times = s.times.drop (s.times.length + 1 - s.capacity) ++ [t] := by
  simp only [push, room, times, List.map_append, List.map_drop, List.length_map, List.map_cons,
    List.map_nil]

def SameTimes (s : Series α) (t : Series β) : Prop := s.capacity = t.capacity ∧ s.times = t.times

theorem SameTimes.push {s : Series α} {t : Series β} (h : s.SameTimes t) (v : α) (w : β)
    (time : Float) : (s.push v time).SameTimes (t.push w time) := by
  refine ⟨h.1, ?_⟩
  rw [times_push, times_push, h.1, h.2]

end Series

namespace Cache

variable {c : Cache} {op : Operation}

def InStep (c : Cache) : Prop :=
  ∀ name e, c.endpoint? name = some e → e.received.SameTimes e.sent

theorem inStep_empty : empty.InStep := nofun

def Operation.WritesBoth (op : Operation) : Prop :=
  ∀ w ∈ op.write?, w.received.isSome ∧ w.sent.isSome

theorem InStep.apply (h : c.InStep) (hOp : op.WritesBoth) : (c.apply op).1.InStep := by
  intro name e he
  rw [endpoint?_apply] at he
  split at he
  · cases he
  · split at he
    · rename_i w hWrite
      obtain ⟨hWritten, _⟩ := Operation.writeTo?_eq_some_iff.mp hWrite
      split at he
      · obtain ⟨hReceived, hSent⟩ := hOp w hWritten
        obtain ⟨received, hReceived⟩ := Option.isSome_iff_exists.mp hReceived
        obtain ⟨sent, hSent⟩ := Option.isSome_iff_exists.mp hSent
        -- A new endpoint starts with two empty series, which are in step.
        have hOld : ((c.endpoint? name).getD (.fresh name)).received.SameTimes
            ((c.endpoint? name).getD (.fresh name)).sent := by
          cases hFound : c.endpoint? name with
          | none => exact ⟨rfl, rfl⟩
          | some old => exact h name old hFound
        obtain rfl := Option.some.inj he
        simp only [EndpointWrite.onto, EndpointWrite.receivedPoint, EndpointWrite.sentPoint,
          hReceived, hSent, Option.map_some, Series.pushPoint]
        exact hOld.push received sent w.timestamp
      · exact h name e he
    · exact h name e he

end Cache

namespace Agent

open Cache (Operation)

theorem Sources.Own.writesBoth {s : Sources} {op : Operation} (h : s.Own op) : op.WritesBoth := by
  rcases h with hNode | hMultiCluster
  · cases hNode <;> exact nofun
  · cases hMultiCluster
    rintro w ⟨⟩
    exact ⟨rfl, rfl⟩

/-- A cycle adds one point to each byte series of its remote, and one to its latencies if there is
one, exactly when all preconditions are met and both counters can be read; otherwise nothing
changes. The time of a sample is finite, as the seconds of a clock are. So where others write to no
endpoint, the byte series of every endpoint have the same times throughout a run. -/
theorem sampled_or_untouched (s : MultiClusterCycle.Sources) (now : Nat) (stamp : Float)
    (e : MultiClusterCycle.Emission) (c : Cache) (o : Options) (sources : Sources)
    (steps : List Step) (hOthers : ∀ x ∈ steps, ∀ op ∈ x.operations, op.write? = none) :
    (∀ remote received sent, MultiClusterCycle.Met s remote → s.received = .ok received →
        s.sent = .ok sent → stamp.isFinite = true →
          MultiClusterCycle.OneSample s stamp remote received sent c
            (MultiClusterCycle.run s now stamp e c)) ∧
      ((∀ remote received sent, MultiClusterCycle.Met s remote → s.received = .ok received →
        s.sent ≠ .ok sent) →
          MultiClusterCycle.Untouched s e c (MultiClusterCycle.run s now stamp e c)) ∧
      (∀ x ∈ (ofOptions o sources).cycles steps, x.before.cache.InStep ∧ x.after.cache.InStep) ∧
      ((ofOptions o sources).after steps).cache.InStep := by
  have hRun : (∀ x ∈ (ofOptions o sources).cycles steps, Kept Cache.InStep Operation.WritesBoth
      x.before ∧ Kept Cache.InStep Operation.WritesBoth x.after) ∧
        Kept Cache.InStep Operation.WritesBoth ((ofOptions o sources).after steps) := by
    refine Kept.run (fun _ _ hOp hCache => hCache.apply hOp) ⟨Cache.inStep_empty, nofun⟩
      (fun _ _ _ hOwn => hOwn.writesBoth) ?_
    intro x hx op hop w hw
    rw [hOthers x hx op hop] at hw
    cases hw
  refine ⟨?_, MultiClusterCycle.run_of_not_met now stamp e c, ?_, hRun.2.cache⟩
  · intro remote received sent hMet hReceived hSent hStamp
    exact MultiClusterCycle.run_of_met now e c hMet hReceived hSent hStamp
  · exact fun x hx => (hRun.1 x hx).imp Kept.cache Kept.cache

def unread : MultiClusterCycle.Sources :=
  { tunnel.multiCluster with sent := .error (.query "permission denied") }

def toward (remote : String) (s : Sources) : Sources :=
  { s with multiCluster := { s.multiCluster with remote := .ok (some remote) } }

def switching : List Step :=
  [.collect .multiCluster, .collect .multiCluster, .configure (toward "cluster-c"),
    .collect .multiCluster, .configure fun s => { s with multiCluster := unread },
    .collect .multiCluster, .cache (.deleteEndpoint "cluster-c"),
    .configure fun _ => toward "cluster-c" tunnel, .collect .multiCluster]

theorem sampled_or_untouched_switching :
    let e : MultiClusterCycle.Emission := ⟨.ofWindow 5000, false⟩
    MultiClusterCycle.OneSample tunnel.multiCluster 7 "cluster-b" 1000 2000 .empty
        (MultiClusterCycle.run tunnel.multiCluster 0 7 e .empty) ∧
      MultiClusterCycle.Untouched unread e .empty (MultiClusterCycle.run unread 0 7 e .empty) ∧
      (MultiClusterCycle.run unread 0 7 e .empty).outcome.isOk = false ∧
      ((ofOptions narrow tunnel).after switching).cache.InStep ∧
      (((ofOptions narrow tunnel).after switching).cache.endpoints.entries.map fun x =>
        (x.1, x.2.received.size)) = [("cluster-b", 2), ("cluster-c", 1)] := by
  intro e
  have hStamp : (7 : Float).isFinite = true := by decide +kernel
  have hOthers : ∀ x ∈ switching, ∀ op ∈ x.operations, op.write? = none := by
    simp [switching, Step.operations, Operation.write?]
  obtain ⟨hSampled, _, _, hInStep⟩ := sampled_or_untouched tunnel.multiCluster 0 7 e .empty
    narrow tunnel switching hOthers
  obtain ⟨_, hUntouched, _⟩ := sampled_or_untouched unread 0 7 e .empty narrow tunnel switching
    hOthers
  refine ⟨hSampled "cluster-b" 1000 2000 ⟨rfl, rfl, rfl, rfl⟩ rfl rfl hStamp, hUntouched ?_,
    by decide +kernel, hInStep, by decide +kernel⟩
  intro remote received sent _ _
  exact nofun

end Agent

end GatewayTelemetry
