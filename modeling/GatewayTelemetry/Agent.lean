import GatewayTelemetry.Channel
import GatewayTelemetry.Collection.MultiCluster
import GatewayTelemetry.Collection.Node
import GatewayTelemetry.Polling.Supervisor

/-! # The agent

Both cycles over one cache and one event channel, run by hand or by polling loops. Cycles take no
time of their own, so those of a sleep are run one after the other in the order of their starts.
-/

namespace GatewayTelemetry

namespace Agent

structure Sources where
  node : NodeCycle.Sources
  multiCluster : MultiClusterCycle.Sources

def Sources.quiet (exporterPort : Nat) : Sources where
  node :=
    { live := []
      exporterIp := fun _ => none
      exporterPort := exporterPort
      ready := true
      cpu := .ok []
      memory := .ok []
      network := .ok [] }
  multiCluster :=
    { devicePresent := false
      countersPresent := true
      remote := .ok none
      gateway := .connected
      received := .ok 0
      sent := .ok 0
      latency := fun _ => none }

structure Options where
  channelCapacity : Nat
  /-- Milliseconds, like all times here. -/
  rateWindow : Nat
  interval : Nat
  stamp : Nat → Float

inductive Place where
  | readiness
  | lookup
  | query
  deriving Repr, DecidableEq

def Place.ofPoint : NodeCycle.Point → Place
  | .readiness => readiness
  | .lookup _ => lookup
  | .query => query

/-- Operations of others, run once when a node cycle next comes to the place. At most one hook
waits; a new one replaces it. -/
structure Hook where
  place : Place
  operations : List Cache.Operation

def runHook : NodeCycle.Others (Option Hook) := fun point waiting =>
  match waiting with
  | some h => if h.place = Place.ofPoint point then (h.operations, none) else ([], some h)
  | none => ([], none)

inductive Step where
  | configure (change : Sources → Sources)
  | hook (h : Hook)
  | cache (operation : Cache.Operation)
  | collect (target : Target)
  | spawn (target : Target) (paused : Bool)
  | supervise (step : Polling.Step)
  | drain
  | dropReceiver
  | dump

inductive Answer where
  | done
  | cache (answer : Cache.Answer)
  | polling (answer : Polling.Answer)
  | events (es : List Event)
  | dump (nodes : List NodeRecord) (endpoints : EndpointMap)

end Agent

structure Agent where
  options : Agent.Options
  sources : Agent.Sources
  waiting : Option Agent.Hook
  cache : Cache
  nodeLimiter : RateLimiter
  emission : MultiClusterCycle.Emission
  channel : Channel
  supervisor : Polling.Supervisor

namespace Agent

def ofOptions (o : Options) (sources : Sources) : Agent where
  options := o
  sources := sources
  waiting := none
  cache := .empty
  nodeLimiter := .ofWindow o.rateWindow
  emission := ⟨.ofWindow o.rateWindow, false⟩
  channel := .ofCapacity o.channelCapacity
  supervisor := .ofInterval o.interval false

def nodeCycle (a : Agent) (now : Nat) : Agent × Except AgentError Unit :=
  let r := NodeCycle.run a.sources.node runHook now a.nodeLimiter ⟨a.cache, a.waiting⟩
  ({ a with
      cache := r.world.cache
      waiting := r.world.others
      nodeLimiter := r.limiter
      channel := a.channel.sendAll r.events }, r.outcome)

def multiClusterCycle (a : Agent) (now : Nat) : Agent × Except AgentError Unit :=
  let r := MultiClusterCycle.run a.sources.multiCluster now (a.options.stamp now) a.emission a.cache
  ({ a with
      cache := r.cache
      emission := r.emission
      channel := a.channel.sendAll r.event.toList }, r.outcome)

def cycle (a : Agent) (target : Target) (now : Nat) : Agent × Except AgentError Unit :=
  match target with
  | .node => a.nodeCycle now
  | .multiCluster => a.multiClusterCycle now

def startsOf (entries : List Polling.LogEntry) : List Nat :=
  (entries.filter fun e => e.mark == .start).map (·.time)

/-- All starts in a log in the order of time; the order of turns decides at one instant. -/
def starts (log : Polling.Log) : List (Nat × Target) :=
  (log.flatMap fun l => (startsOf l.2).map fun time => (time, l.1)).mergeSort
    fun x y => x.1 ≤ y.1

def runStarts (a : Agent) (due : List (Nat × Target)) : Agent :=
  due.foldl (fun a d => (a.cycle d.2 d.1).1) a

/-- Collectors of the agent take no time and never panic. -/
def duty : Polling.Duty := ⟨0, Polling.Outcome.success⟩

def supervise (a : Agent) (step : Polling.Step) : Agent × Except AgentError Answer :=
  let r := a.supervisor.step step
  (runStarts { a with supervisor := r.state } (starts r.log), r.answer.map .polling)

def step (a : Agent) : Step → Agent × Except AgentError Answer
  | .configure change => ({ a with sources := change a.sources }, .ok .done)
  | .hook h => ({ a with waiting := some h }, .ok .done)
  | .cache operation =>
    let (c, answer) := a.cache.apply operation
    ({ a with cache := c }, answer.map .cache)
  | .collect target =>
    let (a, outcome) := a.cycle target a.supervisor.clock
    (a, outcome.map fun _ => .done)
  | .spawn target paused => a.supervise (.spawn target duty paused)
  | .supervise step => a.supervise step
  | .drain =>
    let (channel, events) := a.channel.drain
    ({ a with channel := channel }, .ok (.events events))
  | .dropReceiver => ({ a with channel := a.channel.drop }, .ok .done)
  | .dump => (a, .ok (.dump a.cache.nodes a.cache.endpoints))

end Agent

end GatewayTelemetry
