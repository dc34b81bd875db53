import GatewayTelemetry.Site

/-! # The event stream

Both polling loops run, each paused or not, and every event they hand over is printed on a line of
its own.
-/

namespace GatewayTelemetry.Stream

/-- The node loop starts paused if either the command or the configuration says so. -/
def nodePaused (c : Config) (noNode : Bool) : Bool := noNode || c.nodePaused

/-- The command can start a multi-cluster loop that the configuration would pause. -/
def multiClusterPaused (c : Config) (multiCluster : Bool) : Bool :=
  !multiCluster && c.multiClusterPaused

def opening (c : Config) (multiCluster noNode : Bool) : List Agent.Step :=
  [.spawn .node (nodePaused c noNode), .spawn .multiCluster (multiClusterPaused c multiCluster),
    .supervise (.sleep 1), .supervise .shutdown]

def runSteps (a : Agent) (steps : List Agent.Step) : Agent :=
  steps.foldl (fun a s => (a.step s).1) a

def firstLines (s : Site) (c : Config) (stamp : Float) (multiCluster noNode : Bool) :
    List String :=
  (runSteps (s.agent c stamp) (opening c multiCluster noNode)).channel.queue.map Event.line

end GatewayTelemetry.Stream
