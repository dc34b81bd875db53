import GatewayTelemetry.Cache.Basic

/-! # Operations on the cache

Every use of the cache is one of these operations, so a history of the cache is a list of them.
Each answers, and each leaves the cache to the next one.
-/

namespace GatewayTelemetry.Cache

inductive Operation where
  | upsert (name : String)
  | node (name : String)
  | count
  | nodes
  | setAddress (name : String) (address : Option String)
  | setCpu (name : String) (usage : Usage)
  | setMemory (name : String) (usage : Usage)
  | setNetwork (name : String) (usage : NetworkUsage)
  | reconcile (live : List String)
  | appendLatency (endpoint : String) (value timestamp : Float)
  | appendSent (endpoint : String) (value : UInt64) (timestamp : Float)
  | appendReceived (endpoint : String) (value : UInt64) (timestamp : Float)
  | record (endpoint : String) (sample : EndpointSample)
  | endpoint (name : String)
  | deleteEndpoint (name : String)
  | clearEndpoints
  | endpoints
  | clear

inductive Answer where
  | done
  | node (n : Option NodeRecord)
  | count (n : Nat)
  | nodes (ns : List NodeRecord)
  | reconciled (report : Reconciled)
  | created (flag : Bool)
  | endpoint (e : Option Endpoint)
  | endpoints (m : EndpointMap)

/-- A write to a node either gives the next cache or fails and leaves the old one. -/
def settle (c : Cache) : Except AgentError Cache → Cache × Except AgentError Answer
  | .ok c' => (c', .ok .done)
  | .error e => (c, .error e)

def answered (answer : Bool → Answer) (edit : Cache × Except AgentError Bool) :
    Cache × Except AgentError Answer := (edit.1, edit.2.map answer)

def apply (c : Cache) : Operation → Cache × Except AgentError Answer
  | .upsert name => ((c.upsert name).1, .ok (.node (some (c.upsert name).2)))
  | .node name => (c, .ok (.node (c.node? name)))
  | .count => (c, .ok (.count c.nodes.length))
  | .nodes => (c, .ok (.nodes c.nodes))
  | .setAddress name address => c.settle (c.setAddress name address)
  | .setCpu name usage => c.settle (c.setCpu name usage)
  | .setMemory name usage => c.settle (c.setMemory name usage)
  | .setNetwork name usage => c.settle (c.setNetwork name usage)
  | .reconcile live => ((c.reconcile live).1, .ok (.reconciled (c.reconcile live).2))
  | .appendLatency e v t => answered (fun _ => .done) (c.appendLatency e v t)
  | .appendSent e v t => answered (fun _ => .done) (c.appendSent e v t)
  | .appendReceived e v t => answered (fun _ => .done) (c.appendReceived e v t)
  | .record e s => answered .created (c.recordSample e s)
  | .endpoint name => (c, .ok (.endpoint (c.endpoint? name)))
  | .deleteEndpoint name => ((c.deleteEndpoint name).1, .ok (.endpoint (c.deleteEndpoint name).2))
  | .clearEndpoints => (c.clearEndpoints, .ok .done)
  | .endpoints => (c, .ok (.endpoints c.endpoints))
  | .clear => (.empty, .ok .done)

def applyAll (c : Cache) (history : List Operation) : Cache :=
  history.foldl (fun c op => (c.apply op).1) c

@[simp] theorem applyAll_nil (c : Cache) : c.applyAll [] = c := rfl

@[simp] theorem applyAll_cons (c : Cache) (op : Operation) (rest : List Operation) :
    c.applyAll (op :: rest) = (c.apply op).1.applyAll rest := rfl

theorem applyAll_append (c : Cache) (first second : List Operation) :
    c.applyAll (first ++ second) = (c.applyAll first).applyAll second := by
  simp [applyAll]

end GatewayTelemetry.Cache
