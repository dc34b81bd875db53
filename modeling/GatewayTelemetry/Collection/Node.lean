import GatewayTelemetry.Cache.Operation
import GatewayTelemetry.RateLimiter
import GatewayTelemetry.Record.Reported

/-! # The node cycle

A cycle makes the cached nodes equal to the live ones, resolves the exporter address of every
node, queries the usages, stores for each resolved node what was reported for its address, and
hands over one event per updated node when the rate window is free. At three kinds of points it
waits for a source, and there others may work on the cache.
-/

namespace GatewayTelemetry

namespace NodeCycle

structure Sources where
  live : List String
  exporterIp : String → Option String
  exporterPort : Nat
  ready : Bool
  cpu : Except SourceError (List (Reported Usage))
  memory : Except SourceError (List (Reported Usage))
  network : Except SourceError (List (Reported NetworkUsage))

structure Usages where
  cpu : List (Reported Usage)
  memory : List (Reported Usage)
  network : List (Reported NetworkUsage)

inductive Point where
  | readiness
  | lookup (node : String)
  | query
  deriving Repr, DecidableEq

/-- What others do to the cache at a point, from a state of their own. -/
abbrev Others (σ : Type) := Point → σ → List Cache.Operation × σ

structure World (σ : Type) where
  cache : Cache
  others : σ

variable {σ : Type}

def World.yield (others : Others σ) (point : Point) (w : World σ) : World σ :=
  let (operations, next) := others point w.others
  ⟨w.cache.applyAll operations, next⟩

def addressText (ip : String) (exporterPort : Nat) : String := ip ++ s!":{exporterPort}"

def attempt (c : Cache) : Except AgentError Cache → Cache
  | .ok c' => c'
  | .error _ => c

def resolveNode (s : Sources) (c : Cache) (n : NodeRecord) :
    Cache × Option (String × String) :=
  match s.exporterIp n.name with
  | none =>
    if n.address.isSome then (attempt c (c.setAddress n.name none), none) else (c, none)
  | some ip =>
    let address := addressText ip s.exporterPort
    match c.setAddress n.name (some address) with
    | .ok c' => (c', some (n.name, address))
    | .error _ => (c, none)

def resolve (s : Sources) (others : Others σ) :
    List NodeRecord → World σ → World σ × List (String × String)
  | [], w => (w, [])
  | n :: rest, w =>
    let w := w.yield others (.lookup n.name)
    let (c, found) := resolveNode s w.cache n
    let (w, resolved) := resolve s others rest ⟨c, w.others⟩
    (w, found.toList ++ resolved)

def usages (s : Sources) : Except SourceError Usages := do
  let cpu ← s.cpu
  let memory ← s.memory
  let network ← s.network
  return ⟨cpu, memory, network⟩

def storePart {α : Type} (set : Cache → String → α → Except AgentError Cache) (node : String)
    (part : Option α) (c : Cache) : Except AgentError Cache :=
  match part with
  | some metric => set c node metric
  | none => .ok c

def store (u : Usages) (c : Cache) (node address : String) : Except AgentError (Cache × Bool) := do
  let cpu := Reported.find? u.cpu address
  let memory := Reported.find? u.memory address
  let network := Reported.find? u.network address
  let c ← storePart Cache.setCpu node cpu c
  let c ← storePart Cache.setMemory node memory c
  let c ← storePart Cache.setNetwork node network c
  return (c, cpu.isSome || memory.isSome || network.isSome)

/-- Stores the usages of the resolved nodes in order; gives the updated ones. A node that left in
the meantime is passed over, any other error ends the cycle. -/
def storeAll (u : Usages) :
    List (String × String) → Cache → Cache × Except AgentError (List String)
  | [], c => (c, .ok [])
  | (node, address) :: rest, c =>
    match store u c node address with
    | .ok (c', true) =>
      let (c'', updated) := storeAll u rest c'
      (c'', updated.map (node :: ·))
    | .ok (c', false) => storeAll u rest c'
    | .error (.nodeNotFound _) => storeAll u rest c
    | .error e => (c, .error e)

def event (n : NodeRecord) : Event := ⟨.modified, .node, n.encode⟩

def publish (now : Nat) (limiter : RateLimiter) (c : Cache) (updated : List String) :
    RateLimiter × List Event :=
  if updated.isEmpty then (limiter, [])
  else
    match limiter.tryAcquire now with
    | (true, limiter) => (limiter, (updated.filterMap c.node?).map event)
    | (false, limiter) => (limiter, [])

structure Result (σ : Type) where
  world : World σ
  limiter : RateLimiter
  events : List Event
  outcome : Except AgentError Unit

def finish (s : Sources) (now : Nat) (limiter : RateLimiter) (resolved : List (String × String))
    (w : World σ) : Result σ :=
  match usages s with
  | .error (.unreachable _) => ⟨w, limiter, [], .ok ()⟩
  | .error e => ⟨w, limiter, [], .error (.source e)⟩
  | .ok u =>
    match storeAll u resolved w.cache with
    | (c, .error e) => ⟨⟨c, w.others⟩, limiter, [], .error e⟩
    | (c, .ok updated) =>
      let (limiter, events) := publish now limiter c updated
      ⟨⟨c, w.others⟩, limiter, events, .ok ()⟩

def run (s : Sources) (others : Others σ) (now : Nat) (limiter : RateLimiter) (w : World σ) :
    Result σ :=
  let w : World σ := ⟨(w.cache.reconcile s.live).1, w.others⟩
  let w := w.yield others .readiness
  if !s.ready then ⟨w, limiter, [], .ok ()⟩
  else
    let (w, resolved) := resolve s others w.cache.nodes w
    if resolved.isEmpty then ⟨w, limiter, [], .ok ()⟩
    else finish s now limiter resolved (w.yield others .query)

end NodeCycle

end GatewayTelemetry
