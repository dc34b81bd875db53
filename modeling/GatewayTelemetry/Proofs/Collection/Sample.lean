import GatewayTelemetry.Proofs.Cache.EndpointWrite
import GatewayTelemetry.Proofs.Collection.MultiCluster

/-! # The sample of a multi-cluster cycle

A cycle whose preconditions are met and whose counters can be read adds one point to each byte
series of its remote, and one to the latencies if there is a latency, all at one time. Any other
cycle leaves everything as it is, and it fails only for a counter whose query failed.
-/

namespace GatewayTelemetry

namespace Series

variable {α : Type}

def Gained (s : Series α) (p : Float × α) (t : Series α) : Prop :=
  t.capacity = s.capacity ∧ t.points = (s.points ++ [p]).rtake s.capacity

theorem remembers_points (s : Series α) : s.Remembers s.points := by
  have hRoom : s.points.length - s.capacity = 0 := Nat.sub_eq_zero_of_le s.length_le
  rw [Remembers, List.rtake, hRoom, List.drop_zero]

theorem gained_push (s : Series α) (v : α) (t : Float) : s.Gained (t, v) (s.push v t) :=
  ⟨rfl, s.remembers_points.push v t⟩

theorem Gained.latest? {s t : Series α} {p : Float × α} (h : s.Gained p t) :
    t.latest? = some p := by
  obtain ⟨n, hCapacity⟩ : ∃ n, s.capacity = n + 1 := Nat.exists_eq_add_one.mpr s.capacity_pos
  rw [Series.latest?, h.2, hCapacity, List.rtake_concat_succ, List.getLast?_concat]

end Series

namespace MultiClusterCycle

structure Met (s : Sources) (remote : String) : Prop where
  device : s.devicePresent = true
  counters : s.countersPresent = true
  remote : s.remote = .ok (some remote)
  gateway : s.gateway = .connected

/-- The query of a counter failed, and no counter before it was unreadable. -/
inductive QueryFailed (s : Sources) (detail : String) : Prop
  | received (h : s.received = .error (.query detail))
  | sent {received : UInt64} (h : s.received = .ok received) (h' : s.sent = .error (.query detail))

structure Sampled (s : Sources) (stamp : Float) (remote : String) (received sent : UInt64)
    (before after : Endpoint) : Prop where
  name : after.name = before.name
  received : before.received.Gained (stamp, received) after.received
  sent : before.sent.Gained (stamp, sent) after.sent
  latency : ∀ x, s.latency remote = some x → before.latencies.Gained (stamp, x) after.latencies
  noLatency : s.latency remote = none → after.latencies = before.latencies

/-- A cycle comes to one sample of its remote, and to nothing else in the cache. -/
structure OneSample (s : Sources) (stamp : Float) (remote : String) (received sent : UInt64)
    (c : Cache) (r : Result) : Prop where
  outcome : r.outcome = .ok ()
  nodes : r.cache.nodes = c.nodes
  others : ∀ name, name ≠ remote → r.cache.endpoint? name = c.endpoint? name
  sampled : ∃ after, r.cache.endpoint? remote = some after ∧
    Sampled s stamp remote received sent ((c.endpoint? remote).getD (.fresh remote)) after

/-- A cycle leaves cache, window and mark as they were and hands over nothing. It fails exactly when
the query of a counter failed. -/
def Untouched (s : Sources) (e : Emission) (c : Cache) (r : Result) : Prop :=
  ∃ outcome, r = ⟨c, e, none, outcome⟩ ∧
    ∀ error, outcome = .error error ↔
      ∃ remote detail, Met s remote ∧ QueryFailed s detail ∧ error = .source (.query detail)

variable {s : Sources} {now : Nat} {stamp : Float} {e : Emission} {c : Cache} {remote : String}
  {received sent : UInt64}

theorem met_iff : Met s remote ↔ connectedRemote? s = some remote := by
  rw [connectedRemote?_eq_some_iff]
  exact ⟨fun h => ⟨h.device, h.counters, h.remote, h.gateway⟩,
    fun ⟨hDevice, hCounters, hRemote, hGateway⟩ => ⟨hDevice, hCounters, hRemote, hGateway⟩⟩

theorem sampled_onto (s : Sources) (stamp : Float) (remote : String) (received sent : UInt64)
    (before : Endpoint) :
    Sampled s stamp remote received sent before
      (Cache.EndpointWrite.onto ⟨remote, stamp, s.latency remote, some sent, some received⟩ before)
    where
  name := rfl
  received := before.received.gained_push received stamp
  sent := before.sent.gained_push sent stamp
  latency x hx := by
    rw [Cache.EndpointWrite.onto, Cache.EndpointWrite.latencyPoint, hx]
    exact before.latencies.gained_push x stamp
  noLatency hNone := by
    rw [Cache.EndpointWrite.onto, Cache.EndpointWrite.latencyPoint, hNone]
    rfl

theorem run_of_met (now : Nat) (e : Emission) (c : Cache) (hMet : Met s remote)
    (hReceived : s.received = .ok received) (hSent : s.sent = .ok sent)
    (hStamp : stamp.isFinite = true) :
    OneSample s stamp remote received sent c (run s now stamp e c) := by
  have hRemote := met_iff.mp hMet
  have hCounters : counters s = .ok (received, sent) := counters_eq_ok_iff.mpr ⟨hReceived, hSent⟩
  have hRecord := c.record_eq remote ⟨stamp, received, sent, s.latency remote⟩
  rw [if_pos hStamp] at hRecord
  have hRun : (run s now stamp e c).outcome = .ok () ∧ (run s now stamp e c).cache =
      c.putEndpoint ⟨remote, stamp, s.latency remote, some sent, some received⟩ := by
    simp only [run, hRemote, hCounters, sample_eq, hRecord, and_self]
  refine ⟨hRun.1, ?_, ?_, _, ?_, sampled_onto s stamp remote received sent _⟩
  · rw [hRun.2]
    rfl
  · intro name hName
    simp only [hRun.2, Cache.putEndpoint, Cache.endpoint?, Keyed.find?_insert, if_neg hName]
  · simp only [hRun.2, Cache.putEndpoint, Cache.endpoint?, Keyed.find?_insert, if_true]

theorem met_of_recorded {c' : Cache} {created : Bool}
    (h : recorded? s stamp c = some (c', created)) :
    stamp.isFinite = true ∧ ∃ remote received sent,
      Met s remote ∧ s.received = .ok received ∧ s.sent = .ok sent := by
  obtain ⟨remote, received, sent, hRemote, hCounters, hRecord⟩ := recorded_ok h
  obtain ⟨hReceived, hSent⟩ := counters_eq_ok_iff.mp hCounters
  have hFinite := Cache.isFinite_of_record hRecord
  exact ⟨hFinite, remote, received, sent, met_iff.mpr hRemote, hReceived, hSent⟩

theorem queryFailed_iff {detail : String} :
    QueryFailed s detail ↔ counters s = .error (.query detail) := by
  constructor
  · rintro (hReceived | ⟨hReceived, hSent⟩)
    · rw [counters, hReceived]
      rfl
    · rw [counters, hReceived, hSent]
      rfl
  · intro h
    unfold counters at h
    cases hReceived : s.received with
    | error failure =>
      rw [hReceived] at h
      exact .received (hReceived.trans (congrArg Except.error (Except.error.inj h)))
    | ok received =>
      rw [hReceived] at h
      cases hSent : s.sent with
      | error failure =>
        rw [hSent] at h
        exact .sent hReceived (hSent.trans (congrArg Except.error (Except.error.inj h)))
      | ok sent =>
        rw [hSent] at h
        cases h

theorem run_of_not_met (now : Nat) (stamp : Float) (e : Emission) (c : Cache)
    (h : ∀ remote received sent, Met s remote → s.received = .ok received → s.sent ≠ .ok sent) :
    Untouched s e c (run s now stamp e c) := by
  simp only [Untouched, met_iff, queryFailed_iff]
  unfold run
  cases hRemote : connectedRemote? s with
  | none => exact ⟨_, rfl, by simp⟩
  | some remote =>
    cases hCounters : counters s with
    | ok r =>
      obtain ⟨hReceived, hSent⟩ := counters_eq_ok_iff.mp hCounters
      exact absurd hSent (h remote r.1 r.2 (met_iff.mpr hRemote) hReceived)
    | error failure =>
      cases failure with
      | query detail => exact ⟨_, rfl, by simp [eq_comm]⟩
      | unreachable | missing => exact ⟨_, rfl, by simp⟩

end MultiClusterCycle

end GatewayTelemetry
