import GatewayTelemetry.Cache.Basic
import GatewayTelemetry.Gateway.State
import GatewayTelemetry.RateLimiter

/-! # The multi-cluster cycle

When the tunnel device and its counters are there, a remote cluster is configured and the gateway
is connected, a cycle reads both counters and the latency, records one sample under the remote's
name and hands over one event when the rate window is free.
-/

namespace GatewayTelemetry.MultiClusterCycle

structure Sources where
  devicePresent : Bool
  countersPresent : Bool
  remote : Except SourceError (Option String)
  gateway : GatewayState
  received : Except SourceError UInt64
  sent : Except SourceError UInt64
  latency : String → Option Float

/-- The rate window, and whether an endpoint was made since the last event. -/
structure Emission where
  limiter : RateLimiter
  pendingAdded : Bool
  deriving Repr, DecidableEq

/-- The configured remote, if all preconditions are met. -/
def connectedRemote? (s : Sources) : Option String :=
  if !s.devicePresent || !s.countersPresent then none
  else
    match s.remote with
    | .ok (some remote) => if s.gateway = .connected then some remote else none
    | _ => none

def counters (s : Sources) : Except SourceError (UInt64 × UInt64) := do
  let received ← s.received
  let sent ← s.sent
  return (received, sent)

def event (added : Bool) (c : Cache) : Event :=
  ⟨if added then .added else .modified, .multiCluster, EndpointMap.encode c.endpoints⟩

/-- Marks a new endpoint as pending; if the window is free, takes the mark and gives the event. -/
def publish (now : Nat) (e : Emission) (c : Cache) (created : Bool) : Emission × Option Event :=
  let pending := e.pendingAdded || created
  match e.limiter.tryAcquire now with
  | (true, limiter) => (⟨limiter, false⟩, some (event pending c))
  | (false, limiter) => (⟨limiter, pending⟩, none)

structure Result where
  cache : Cache
  emission : Emission
  event : Option Event
  outcome : Except AgentError Unit

def sample (s : Sources) (now : Nat) (stamp : Float) (e : Emission) (c : Cache) (remote : String)
    (received sent : UInt64) : Result :=
  match c.recordSample remote ⟨stamp, received, sent, s.latency remote⟩ with
  | (c, .error error) => ⟨c, e, none, .error error⟩
  | (c, .ok created) =>
    let (e, event) := publish now e c created
    ⟨c, e, event, .ok ()⟩

def run (s : Sources) (now : Nat) (stamp : Float) (e : Emission) (c : Cache) : Result :=
  match connectedRemote? s with
  | none => ⟨c, e, none, .ok ()⟩
  | some remote =>
    match counters s with
    | .error (.query detail) => ⟨c, e, none, .error (.source (.query detail))⟩
    | .error _ => ⟨c, e, none, .ok ()⟩
    | .ok (received, sent) => sample s now stamp e c remote received sent

end GatewayTelemetry.MultiClusterCycle
