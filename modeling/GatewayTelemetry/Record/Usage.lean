import GatewayTelemetry.Record.Error
import GatewayTelemetry.Schema.Layout

/-! # Usage records

The usage of a resource is its total and a series of samples. The usage of a network device is a
series of receive rates and one of transmit rates.
-/

namespace GatewayTelemetry

abbrev Sample := Float × Float

def Sample.decode : Decoder Sample := Decoder.pair Decoder.float Decoder.float

def Sample.encode (s : Sample) : Json := .arr [.ofFloat s.1, .ofFloat s.2]

def Sample.decodeList : Decoder (List Sample) := Decoder.list Sample.decode

def Sample.encodeList (samples : List Sample) : Json := .arr (samples.map Sample.encode)

structure Usage where
  total : Int64
  samples : List Sample

namespace Usage

def title : Resource → String
  | .cpu => "struct CpuMetric"
  | .memory => "struct MemoryMetric"

def layout (resource : Resource) : Layout :=
  ⟨title resource,
    [.must "total" Decoder.int64, .must "usages" Sample.decodeList], true⟩

def ofRow (r : Row) : Except Fault Usage := do
  let total ← r.get "total" Decoder.int64
  let samples ← r.get "usages" Sample.decodeList
  return ⟨total, samples⟩

def decode (resource : Resource) : Decoder Usage := fun j => do
  ofRow (← (layout resource).row j)

def encode (u : Usage) : Json :=
  .obj [("total", .ofInt64 u.total), ("usages", Sample.encodeList u.samples)]

def validate (resource : Resource) (u : Usage) : Except RecordError Unit :=
  if u.total < 0 then .error (.negativeTotal resource u.total) else .ok ()

def ofFields (resource : Resource) (j : Json) : Except RecordError Usage := do
  let u ← (decode resource j).mapError .shape
  u.validate resource
  return u

end Usage

structure NetworkUsage where
  device : String
  received : List Sample
  sent : List Sample

namespace NetworkUsage

def layout : Layout :=
  ⟨"struct NetworkMetric",
    [.must "device" Decoder.text, .must "rx_bytes" Sample.decodeList,
      .must "tx_bytes" Sample.decodeList], true⟩

def ofRow (r : Row) : Except Fault NetworkUsage := do
  let device ← r.get "device" Decoder.text
  let received ← r.get "rx_bytes" Sample.decodeList
  let sent ← r.get "tx_bytes" Sample.decodeList
  return ⟨device, received, sent⟩

def decode : Decoder NetworkUsage := fun j => do
  ofRow (← layout.row j)

def encode (u : NetworkUsage) : Json :=
  .obj [("device", .str u.device), ("rx_bytes", Sample.encodeList u.received),
    ("tx_bytes", Sample.encodeList u.sent)]

def validate (u : NetworkUsage) : Except RecordError Unit :=
  if u.device.isEmpty then .error .emptyDevice else .ok ()

def ofFields (j : Json) : Except RecordError NetworkUsage := do
  let u ← (decode j).mapError .shape
  u.validate
  return u

end NetworkUsage

end GatewayTelemetry
