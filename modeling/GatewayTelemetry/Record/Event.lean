import GatewayTelemetry.Schema.Layout

/-! # Change events

An event tells the consumer that the record of a target was added or changed, with the record's
fields as payload.
-/

namespace GatewayTelemetry

inductive Target where
  | node
  | multiCluster
  deriving Repr, DecidableEq

namespace Target

def name : Target → String
  | node => "node_metric"
  | multiCluster => "multi_cluster_metric"

def decode : Decoder Target :=
  Decoder.variant [(node.name, node), (multiCluster.name, multiCluster)]

def encode (t : Target) : Json := .str t.name

end Target

inductive EventKind where
  | added
  | modified
  deriving Repr, DecidableEq

namespace EventKind

def name : EventKind → String
  | added => "ADDED"
  | modified => "MODIFIED"

def decode : Decoder EventKind :=
  Decoder.variant [(added.name, added), (modified.name, modified)]

def encode (k : EventKind) : Json := .str k.name

end EventKind

structure Event where
  kind : EventKind
  target : Target
  payload : Json

namespace Event

def layout : Layout :=
  ⟨"struct Event",
    [.must "kind" EventKind.decode, .must "target" Target.decode,
      .must "payload" Decoder.value], false⟩

def ofRow (r : Row) : Except Fault Event := do
  let kind ← r.get "kind" EventKind.decode
  let target ← r.get "target" Target.decode
  let payload ← r.get "payload" Decoder.value
  return ⟨kind, target, payload⟩

def decode : Decoder Event := fun j => do
  ofRow (← layout.row j)

def encode (e : Event) : Json :=
  .obj [("kind", e.kind.encode), ("payload", e.payload), ("target", e.target.encode)]

def line (e : Event) : String :=
  Json.compact (.obj [("kind", e.kind.encode), ("target", e.target.encode),
    ("payload", e.payload)])

end Event

end GatewayTelemetry
