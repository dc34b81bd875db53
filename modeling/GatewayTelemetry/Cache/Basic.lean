import GatewayTelemetry.Error
import GatewayTelemetry.Record.EndpointMap
import GatewayTelemetry.Record.Node

/-! # The metric cache

The cache holds the records of all live nodes in the order of their insertion, one per name, and
the endpoint map. A write that fails leaves the cache as it was.
-/

namespace GatewayTelemetry

structure Cache where
  nodes : List NodeRecord
  endpoints : EndpointMap

def ascending (names : List String) : List String :=
  (Keyed.ofList (names.map fun n => (n, ()))).keys

/-- What a reconciliation added, in ascending order, and removed, in cache order. -/
structure Reconciled where
  added : List String
  removed : List String
  deriving Repr, DecidableEq

def Reconciled.isEmpty (r : Reconciled) : Bool := r.added.isEmpty && r.removed.isEmpty

structure EndpointSample where
  timestamp : Float
  received : UInt64
  sent : UInt64
  latency : Option Float

/-- Work on one endpoint in place: what was done before a failure stays done. -/
abbrev EndpointWork := ExceptT RecordError (StateM Endpoint)

def EndpointWork.append (f : Endpoint → Except RecordError Endpoint) : EndpointWork Unit := do
  match f (← get) with
  | .ok e => set e
  | .error error => throw error

/-- The timestamp is looked at before any series, so that the series stay in step. -/
def EndpointSample.work (s : EndpointSample) : EndpointWork Unit := do
  if !s.timestamp.isFinite then throw (.timestampNotFinite s.timestamp)
  EndpointWork.append (·.appendReceived s.received s.timestamp)
  EndpointWork.append (·.appendSent s.sent s.timestamp)
  match s.latency with
  | some latency => EndpointWork.append (·.appendLatency latency s.timestamp)
  | none => return

namespace Cache

def empty : Cache := ⟨[], ∅⟩

instance : Inhabited Cache := ⟨empty⟩

def node? (c : Cache) (name : String) : Option NodeRecord :=
  c.nodes.find? fun n => n.name == name

def names (c : Cache) : List String := c.nodes.map (·.name)

def upsert (c : Cache) (name : String) : Cache × NodeRecord :=
  match c.node? name with
  | some n => (c, n)
  | none => ({ c with nodes := c.nodes ++ [.fresh name] }, .fresh name)

def modifyFirst (name : String) (f : NodeRecord → NodeRecord) :
    List NodeRecord → Option (List NodeRecord)
  | [] => none
  | n :: rest =>
    if n.name = name then some (f n :: rest) else (modifyFirst name f rest).map (n :: ·)

def modifyNode (c : Cache) (name : String) (f : NodeRecord → NodeRecord) :
    Except AgentError Cache :=
  match modifyFirst name f c.nodes with
  | some nodes => .ok { c with nodes := nodes }
  | none => .error (.nodeNotFound name)

def setAddress (c : Cache) (name : String) (address : Option String) : Except AgentError Cache :=
  c.modifyNode name fun n => { n with address := address }

def setCpu (c : Cache) (name : String) (usage : Usage) : Except AgentError Cache :=
  c.modifyNode name fun n => { n with cpu := some usage }

def setMemory (c : Cache) (name : String) (usage : Usage) : Except AgentError Cache :=
  c.modifyNode name fun n => { n with memory := some usage }

def setNetwork (c : Cache) (name : String) (usage : NetworkUsage) : Except AgentError Cache :=
  c.modifyNode name fun n => { n with network := some usage }

/-- Makes the node set equal to `live`: departed nodes leave, surviving ones keep their records
and their order, new ones follow in ascending order. -/
def reconcile (c : Cache) (live : List String) : Cache × Reconciled :=
  let added := (ascending live).filter fun name => !c.names.contains name
  let kept := c.nodes.filter fun n => live.contains n.name
  let departed := c.nodes.filter fun n => !live.contains n.name
  ({ c with nodes := kept ++ added.map .fresh }, ⟨added, departed.map (·.name)⟩)

/-- Works in place on the entry under `name`, made on first use; an entry made for work that fails
is taken back. The flag tells whether the entry is new. -/
def editEndpoint (c : Cache) (name : String) (work : EndpointWork Unit) :
    Cache × Except AgentError Bool :=
  let (entry, created) := EndpointMap.entry c.endpoints name
  let (outcome, edited) := work.run.run entry
  let touched := c.endpoints.insert name edited
  match outcome with
  | .ok () => ({ c with endpoints := touched }, .ok created)
  | .error e =>
    ({ c with endpoints := if created then touched.erase name else touched }, .error (.record e))

def appendLatency (c : Cache) (name : String) (value timestamp : Float) :
    Cache × Except AgentError Bool :=
  c.editEndpoint name (.append fun e => e.appendLatency value timestamp)

def appendSent (c : Cache) (name : String) (value : UInt64) (timestamp : Float) :
    Cache × Except AgentError Bool :=
  c.editEndpoint name (.append fun e => e.appendSent value timestamp)

def appendReceived (c : Cache) (name : String) (value : UInt64) (timestamp : Float) :
    Cache × Except AgentError Bool :=
  c.editEndpoint name (.append fun e => e.appendReceived value timestamp)

/-- Appends one reading to all series of an endpoint; the flag tells whether its entry is new. -/
def recordSample (c : Cache) (name : String) (s : EndpointSample) :
    Cache × Except AgentError Bool := c.editEndpoint name s.work

def endpoint? (c : Cache) (name : String) : Option Endpoint := c.endpoints.find? name

def deleteEndpoint (c : Cache) (name : String) : Cache × Option Endpoint :=
  ({ c with endpoints := c.endpoints.erase name }, c.endpoint? name)

def clearEndpoints (c : Cache) : Cache := { c with endpoints := ∅ }

end Cache

end GatewayTelemetry
