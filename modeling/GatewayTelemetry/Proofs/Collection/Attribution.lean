import GatewayTelemetry.Proofs.Cache.EndpointWrite
import GatewayTelemetry.Proofs.Collection.MultiCluster
import GatewayTelemetry.Proofs.Gateway.Tunnel
import GatewayTelemetry.Site

/-! # Which cluster the counters are put down to

The gateway counts as connected as soon as some tunnel of an active gateway is connected, whatever
cluster it leads to. A cycle asks for that and for a configured remote cluster, and does not compare
the two. Main statement: what a cycle records then, and exactly when it records nothing but what
went through a tunnel to the cluster that it names.
-/

namespace GatewayTelemetry

namespace Gateway

/-- The gateways could be listed, and there is a tunnel to some cluster. -/
def Tunnelled (listed : Option (List Json)) : Prop := ∃ gs ∈ listed, ∃ t, Tunnel gs t

def TunnelledTo (listed : Option (List Json)) (remote : String) : Prop :=
  ∃ gs ∈ listed, ∃ t, Tunnel gs t ∧ remote? t = some remote

theorem state_eq_connected_iff {listed : Option (List Json)} :
    state listed = .connected ↔ Tunnelled listed := by
  cases listed with
  | none => exact ⟨nofun, fun ⟨_, hListed, _⟩ => nomatch hListed⟩
  | some gs =>
    rw [state, classify_eq_connected_iff, Tunnelled]
    simp

end Gateway

open Gateway (Tunnelled TunnelledTo)

namespace MultiClusterCycle

def Sources.judgedBy (s : Sources) (listed : Option (List Json)) : Sources :=
  { s with gateway := Gateway.state listed }

theorem judgedBy_listed (s : Site) (c : Config) :
    (s.multiClusterSources c).judgedBy (s.listed c) = s.multiClusterSources c := by
  simp only [Sources.judgedBy, Site.multiClusterSources]

structure Ready (s : Sources) (remote : String) (received sent : UInt64) : Prop where
  device : s.devicePresent = true
  counters : s.countersPresent = true
  remote : s.remote = .ok (some remote)
  received : s.received = .ok received
  sent : s.sent = .ok sent

variable {s : Sources} {listed : Option (List Json)} {remote : String} {received sent : UInt64}
  {now : Nat} {stamp : Float} {e : Emission} {c c' : Cache} {created : Bool}

theorem ready_iff :
    connectedRemote? (s.judgedBy listed) = some remote ∧
        counters (s.judgedBy listed) = .ok (received, sent) ↔
      Ready s remote received sent ∧ Tunnelled listed := by
  rw [connectedRemote?_eq_some_iff, counters_eq_ok_iff]
  constructor
  · rintro ⟨⟨hDevice, hCounters, hRemote, hGateway⟩, hReceived, hSent⟩
    exact ⟨⟨hDevice, hCounters, hRemote, hReceived, hSent⟩,
      Gateway.state_eq_connected_iff.mp hGateway⟩
  · rintro ⟨hReady, hTunnel⟩
    exact ⟨⟨hReady.device, hReady.counters, hReady.remote,
      Gateway.state_eq_connected_iff.mpr hTunnel⟩, hReady.received, hReady.sent⟩

theorem ready_of_recorded (h : recorded? (s.judgedBy listed) stamp c = some (c', created)) :
    ∃ remote received sent, Ready s remote received sent ∧ Tunnelled listed ∧
      stamp.isFinite = true ∧
        c' = (c.apply (.record remote ⟨stamp, received, sent, s.latency remote⟩)).1 := by
  obtain ⟨remote, received, sent, hRemote, hCounters, hRecord⟩ := recorded_ok h
  obtain ⟨hReady, hTunnel⟩ := ready_iff.mp ⟨hRemote, hCounters⟩
  have hSample : c.record remote ⟨stamp, received, sent, s.latency remote⟩ = .ok (c', created) :=
    hRecord
  have hFinite := Cache.isFinite_of_record hSample
  exact ⟨remote, received, sent, hReady, hTunnel, hFinite, by rw [Cache.apply_record, hSample]⟩

theorem recorded_of_ready (hReady : Ready s remote received sent) (hTunnel : Tunnelled listed)
    (hFinite : stamp.isFinite = true) :
    (recorded? (s.judgedBy listed) stamp c).isSome = true := by
  obtain ⟨hRemote, hCounters⟩ := ready_iff.mpr ⟨hReady, hTunnel⟩
  simp [recorded?, hRemote, hCounters, Cache.record_eq, hFinite, Except.toOption]

theorem run_cases (s : Sources) (listed : Option (List Json)) (now : Nat) (stamp : Float)
    (e : Emission) (c : Cache) :
    (∃ remote received sent, Ready s remote received sent ∧ Tunnelled listed ∧
      stamp.isFinite = true ∧
        (run (s.judgedBy listed) now stamp e c).cache =
          (c.apply (.record remote ⟨stamp, received, sent, s.latency remote⟩)).1) ∨
    ((∀ remote received sent, Ready s remote received sent → Tunnelled listed →
        stamp.isFinite = false) ∧
      ∃ outcome, run (s.judgedBy listed) now stamp e c = ⟨c, e, none, outcome⟩) := by
  cases hRecorded : recorded? (s.judgedBy listed) stamp c with
  | some r =>
    obtain ⟨c', created⟩ := r
    obtain ⟨remote, received, sent, hReady, hTunnel, hFinite, hCache⟩ := ready_of_recorded hRecorded
    refine .inl ⟨remote, received, sent, hReady, hTunnel, hFinite, ?_⟩
    rw [run_of_recorded now e hRecorded, hCache]
  | none =>
    refine .inr ⟨fun remote received sent hReady hTunnel => ?_, run_of_unrecorded now e hRecorded⟩
    rw [Bool.eq_false_iff]
    intro hFinite
    have hSome := recorded_of_ready (c := c) hReady hTunnel hFinite
    rw [hRecorded] at hSome
    cases hSome

theorem endpoint?_record_of_ne {x : EndpointSample} {name : String} (h : name ≠ remote) :
    (c.apply (.record remote x)).1.endpoint? name = c.endpoint? name := by
  rw [Cache.endpoint?_apply, Cache.Operation.writeTo?_of_ne (w := ⟨remote, x.timestamp, x.latency,
    some x.sent, some x.received⟩) rfl h]
  rfl

theorem endpoint?_record_isSome (c : Cache) (remote : String) {x : EndpointSample}
    (h : x.timestamp.isFinite = true) :
    ((c.apply (.record remote x)).1.endpoint? remote).isSome = true := by
  rw [Cache.apply_record, Cache.record_eq, if_pos h]
  simp [Cache.endpoint?, Cache.putEndpoint]

theorem attribution (s : Sources) (listed : Option (List Json)) :
    (∀ now stamp e c,
      (∃ remote received sent, Ready s remote received sent ∧ Tunnelled listed ∧
        stamp.isFinite = true ∧
          (run (s.judgedBy listed) now stamp e c).cache =
            (c.apply (.record remote ⟨stamp, received, sent, s.latency remote⟩)).1) ∨
      ((∀ remote received sent, Ready s remote received sent → Tunnelled listed →
          stamp.isFinite = false) ∧
        ∃ outcome, run (s.judgedBy listed) now stamp e c = ⟨c, e, none, outcome⟩)) ∧
    ((∀ now stamp e c name,
        (run (s.judgedBy listed) now stamp e c).cache.endpoint? name ≠ c.endpoint? name →
          TunnelledTo listed name) ↔
      ∀ remote received sent, Ready s remote received sent → Tunnelled listed →
        TunnelledTo listed remote) := by
  refine ⟨run_cases s listed, ?_, ?_⟩
  · intro hOnly remote received sent hReady hTunnel
    -- A ready cycle on the empty cache makes the endpoint, which shows where the sample went.
    obtain ⟨stamp, hFinite⟩ : ∃ stamp : Float, stamp.isFinite = true := ⟨0, rfl⟩
    rcases run_cases s listed 0 stamp ⟨⟨0, none⟩, false⟩ .empty with
      ⟨name, r, t, hSame, _, _, hCache⟩ | ⟨hNone, _⟩
    · have hName : name = remote :=
        Option.some.inj (Except.ok.inj (hSame.remote.symm.trans hReady.remote))
      subst hName
      apply hOnly 0 stamp ⟨⟨0, none⟩, false⟩ .empty name
      rw [hCache]
      intro hEmpty
      have hMade := endpoint?_record_isSome .empty name (x := ⟨stamp, r, t, s.latency name⟩) hFinite
      rw [hEmpty] at hMade
      cases hMade
    · exact absurd (hFinite.symm.trans (hNone remote received sent hReady hTunnel)) nofun
  · intro hReadyOnly now stamp e c name hChanged
    rcases run_cases s listed now stamp e c with
      ⟨remote, received, sent, hReady, hTunnel, _, hCache⟩ | ⟨_, outcome, hRun⟩
    · rw [hCache] at hChanged
      have hName : name = remote := by
        by_contra hOther
        exact hChanged (endpoint?_record_of_ne hOther)
      exact hName ▸ hReadyOnly remote received sent hReady hTunnel
    · rw [hRun] at hChanged
      exact absurd rfl hChanged

def elsewhere : List Json :=
  [.obj [("status", .obj [
    ("connections", .arr [
      .obj [("endpoint", .obj [("cluster_id", .str "cluster-c")]), ("status", .str "connected")]]),
    ("haStatus", .str "active")])]]

def configured : Sources :=
  ⟨true, true, .ok (some "cluster-b"), .unknown, .ok 1000, .ok 2000, fun _ => none⟩

theorem attributed_elsewhere :
    ¬ ∀ (s : Sources) (listed : Option (List Json)) (now : Nat) (stamp : Float) (e : Emission)
      (c : Cache) (name : String),
        (run (s.judgedBy listed) now stamp e c).cache.endpoint? name ≠ c.endpoint? name →
          TunnelledTo listed name := by
  intro h
  have hRecorded : ((run (configured.judgedBy (some elsewhere)) 0 0 ⟨⟨0, none⟩, false⟩
      .empty).cache.endpoint? "cluster-b").isSome = true := by decide +kernel
  obtain ⟨gs, hListed, t, hTunnel, hRemote⟩ :=
    h configured (some elsewhere) 0 0 ⟨⟨0, none⟩, false⟩ .empty "cluster-b"
      (ne_of_apply_ne Option.isSome (by rw [hRecorded]; exact nofun))
  cases hListed
  obtain ⟨g, hGateway, hConnection⟩ := Gateway.tunnel_iff.mp hTunnel
  have hOther : ∀ g ∈ elsewhere, ∀ t ∈ Gateway.activeConnections g,
      Gateway.remote? t ≠ some "cluster-b" := by decide +kernel
  exact hOther g hGateway t hConnection hRemote

end MultiClusterCycle

end GatewayTelemetry
