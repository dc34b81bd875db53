import GatewayTelemetry.Keyed
import GatewayTelemetry.Record.Endpoint

/-! # The endpoint map

The multi-cluster record: endpoints by name. An entry comes into being on first use.
-/

namespace GatewayTelemetry

abbrev EndpointMap := Keyed Endpoint

namespace EndpointMap

def entry (m : EndpointMap) (name : String) : Endpoint × Bool :=
  match m.find? name with
  | some e => (e, false)
  | none => (.fresh name, true)

def ensure (m : EndpointMap) (name : String) : EndpointMap := m.insert name (m.entry name).1

/-- Runs one append on the entry under `name`, made on first use and kept even if the append is
refused; the flag tells whether it had to be made. -/
def appendTo (m : EndpointMap) (name : String)
    (append : Endpoint → Except RecordError Endpoint) :
    EndpointMap × Except RecordError Bool :=
  match append (entry m name).1 with
  | .ok e => (m.insert name e, .ok (entry m name).2)
  | .error e => (ensure m name, .error e)

def decodeEntries : List (String × Json) → Except Fault (List (String × Endpoint))
  | [] => .ok []
  | (k, v) :: rest => do
    let e ← Endpoint.decode v
    return (k, e) :: (← decodeEntries rest)

def decode : Decoder EndpointMap
  | .obj fields => (decodeEntries fields).map Keyed.ofList
  | j => .error (.invalidType j "a map")

def encode (m : EndpointMap) : Json := .obj (m.entries.map fun e => (e.1, e.2.encode))

def validateEntries : List (String × Endpoint) → Except RecordError Unit
  | [] => .ok ()
  | (k, e) :: rest => do
    e.validate
    if k ≠ e.name then .error (.misplacedEndpoint k e.name)
    validateEntries rest

def validate (m : EndpointMap) : Except RecordError Unit := validateEntries m.entries

def ofFields (j : Json) : Except RecordError EndpointMap := do
  let m ← (decode j).mapError .shape
  validate m
  return m

end EndpointMap

end GatewayTelemetry
