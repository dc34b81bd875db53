import GatewayTelemetry.CommandLine
import GatewayTelemetry.Site

/-! # Snapshots

A snapshot runs one cycle of each target in its scope on an empty cache, nodes first, and shows
what is cached then. It needs a cluster view that is complete.
-/

namespace GatewayTelemetry.Snapshot

open CommandLine

/-- Seconds to wait for the cluster view. -/
def patience : Nat := 10

def collect (a : Agent) (wanted : Bool) (target : Target) : Except RunError Agent :=
  if !wanted then .ok a
  else
    match a.cycle target 0 with
    | (a, .ok ()) => .ok a
    | (_, .error e) => .error (.agent e)

def take (s : Site) (c : Config) (stamp : Float) (scope : Scope) : Except RunError Cache := do
  if !s.cluster.isSynced then .error (.syncTimeout patience)
  let a ← collect (s.agent c stamp) scope.includesNodes .node
  let a ← collect a scope.includesMultiCluster .multiCluster
  return a.cache

def encode (scope : Scope) (c : Cache) : Json :=
  .obj
    ((if scope.includesMultiCluster then [("multi_cluster", EndpointMap.encode c.endpoints)] else [])
      ++ (if scope.includesNodes then [("nodes", .arr (c.nodes.map NodeRecord.encode))] else []))

def document (s : Site) (c : Config) (stamp : Float) (scope : Scope) : Except RunError String := do
  return (encode scope (← take s c stamp scope)).pretty

end GatewayTelemetry.Snapshot
