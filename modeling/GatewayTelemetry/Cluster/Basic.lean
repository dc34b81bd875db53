import GatewayTelemetry.Keyed
import GatewayTelemetry.Text.Blank

/-! # The cluster objects in view

A local copy of the few fields of nodes and pods that matter: the node names, and for every pod
its node, address and phase. Pods are kept by namespace and name.
-/

namespace GatewayTelemetry

structure Pod where
  name : String
  space : String
  node : Option String
  ip : Option String
  phase : Option String
  deriving Repr, DecidableEq

def Pod.keyOf (space name : String) : String := space ++ "/" ++ name

def Pod.key (p : Pod) : String := keyOf p.space p.name

structure Described where
  name : Option String
  space : Option String
  node : Option String
  ip : Option String
  phase : Option String
  deriving Repr, DecidableEq

/-- A pod needs a name; without a namespace it is kept under the empty one. -/
def Pod.ofDescribed? (d : Described) : Option Pod :=
  d.name.map fun name => ⟨name, d.space.getD "", d.node, d.ip, d.phase⟩

inductive Watched where
  | nodes
  | pods
  deriving Repr, DecidableEq

structure Cluster where
  nodes : Keyed Unit
  pods : Keyed Pod
  nodesSynced : Bool
  podsSynced : Bool

namespace Cluster

def empty : Cluster := ⟨∅, ∅, false, false⟩

instance : Inhabited Cluster := ⟨empty⟩

def isSynced (c : Cluster) : Bool := c.nodesSynced && c.podsSynced

def nodeNames (c : Cluster) : List String := c.nodes.keys

def insertNode (c : Cluster) (name : String) : Cluster := { c with nodes := c.nodes.insert name () }

def removeNode (c : Cluster) (name : String) : Cluster := { c with nodes := c.nodes.erase name }

def insertPod (c : Cluster) (p : Pod) : Cluster := { c with pods := c.pods.insert p.key p }

def removePod (c : Cluster) (space name : String) : Cluster :=
  { c with pods := c.pods.erase (Pod.keyOf space name) }

def put (c : Cluster) (w : Watched) (d : Described) : Cluster :=
  match w with
  | .nodes => (d.name.map c.insertNode).getD c
  | .pods => ((Pod.ofDescribed? d).map c.insertPod).getD c

/-- Removes an object. For a pod, missing parts of the key have standing names. -/
def drop (c : Cluster) (w : Watched) (d : Described) : Cluster :=
  match w with
  | .nodes => (d.name.map c.removeNode).getD c
  | .pods => c.removePod (d.space.getD "default") (d.name.getD "unknown")

def keepOnly (c : Cluster) (w : Watched) (keys : List String) : Cluster :=
  match w with
  | .nodes => { c with nodes := c.nodes.retain keys.contains }
  | .pods => { c with pods := c.pods.retain keys.contains }

def markSynced (c : Cluster) (w : Watched) : Cluster :=
  match w with
  | .nodes => { c with nodesSynced := true }
  | .pods => { c with podsSynced := true }

def running : String := "Running"

def isExporterOn (marker node : String) (p : Pod) : Bool :=
  p.node == some node && Text.occursIn marker.toList p.name.toList && p.phase == some running
    && p.ip.isSome

structure Exporter where
  pod : String
  ip : String
  deriving Repr, DecidableEq

def lesser (a b : Exporter) : Exporter := if b.pod < a.pod then b else a

def exporterAmong (marker node : String) (pods : List Pod) : Option Exporter :=
  let found := (pods.filter (isExporterOn marker node)).filterMap fun p =>
    p.ip.map fun ip => ⟨p.name, ip⟩
  match found with
  | [] => none
  | e :: rest => some (rest.foldl lesser e)

def exporter? (c : Cluster) (marker node : String) : Option Exporter :=
  exporterAmong marker node c.pods.values

end Cluster

end GatewayTelemetry
