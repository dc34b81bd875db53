import GatewayTelemetry.Record.Usage

/-! # Node records

A node is known by its name. Its exporter address and its three usages are missing until they
have been found.
-/

namespace GatewayTelemetry

structure NodeRecord where
  name : String
  address : Option String
  cpu : Option Usage
  memory : Option Usage
  network : Option NetworkUsage

namespace NodeRecord

def fresh (name : String) : NodeRecord := ⟨name, none, none, none, none⟩

def hasUsage (n : NodeRecord) : Bool := n.cpu.isSome || n.memory.isSome || n.network.isSome

def layout : Layout :=
  ⟨"struct NodeMetric",
    [.must "name" Decoder.text, .may "instance" (Decoder.nullable Decoder.text),
      .may "cpu_metric" (Decoder.nullable (Usage.decode .cpu)),
      .may "memory_metric" (Decoder.nullable (Usage.decode .memory)),
      .may "network_metric" (Decoder.nullable NetworkUsage.decode)], true⟩

def ofRow (r : Row) : Except Fault NodeRecord := do
  let name ← r.get "name" Decoder.text
  let address ← r.getD "instance" (Decoder.nullable Decoder.text) none
  let cpu ← r.getD "cpu_metric" (Decoder.nullable (Usage.decode .cpu)) none
  let memory ← r.getD "memory_metric" (Decoder.nullable (Usage.decode .memory)) none
  let network ← r.getD "network_metric" (Decoder.nullable NetworkUsage.decode) none
  return ⟨name, address, cpu, memory, network⟩

def decode : Decoder NodeRecord := fun j => do
  ofRow (← layout.row j)

def encode (n : NodeRecord) : Json :=
  .obj [("cpu_metric", .ofOption Usage.encode n.cpu), ("instance", .ofOption .str n.address),
    ("memory_metric", .ofOption Usage.encode n.memory), ("name", .str n.name),
    ("network_metric", .ofOption NetworkUsage.encode n.network)]

def validatePart {α : Type} (check : α → Except RecordError Unit) :
    Option α → Except RecordError Unit
  | some a => check a
  | none => .ok ()

def validate (n : NodeRecord) : Except RecordError Unit := do
  if n.name.isEmpty then .error .emptyNodeName
  validatePart (Usage.validate .cpu) n.cpu
  validatePart (Usage.validate .memory) n.memory
  validatePart NetworkUsage.validate n.network

def ofFields (j : Json) : Except RecordError NodeRecord := do
  let n ← (decode j).mapError .shape
  n.validate
  return n

end NodeRecord

end GatewayTelemetry
