import GatewayTelemetry.Record.Error
import GatewayTelemetry.Schema.Layout
import GatewayTelemetry.Series

/-! # Endpoint records

An endpoint is one remote cluster connection with its latencies and byte counters.
-/

namespace GatewayTelemetry

structure Endpoint where
  name : String
  latencies : Series Float
  sent : Series UInt64
  received : Series UInt64

namespace Endpoint

def fresh (name : String) : Endpoint := ⟨name, .standard, .standard, .standard⟩

def layout : Layout :=
  ⟨"struct EndpointNetworkMetric",
    [.must "name" Decoder.text, .may "latencies" (Series.decode Decoder.float),
      .may "tx_bytes" (Series.decode Decoder.uint64),
      .may "rx_bytes" (Series.decode Decoder.uint64)], true⟩

def ofRow (r : Row) : Except Fault Endpoint := do
  let name ← r.get "name" Decoder.text
  let latencies ← r.getD "latencies" (Series.decode Decoder.float) .standard
  let sent ← r.getD "tx_bytes" (Series.decode Decoder.uint64) .standard
  let received ← r.getD "rx_bytes" (Series.decode Decoder.uint64) .standard
  return ⟨name, latencies, sent, received⟩

def decode : Decoder Endpoint := fun j => do
  ofRow (← layout.row j)

def encode (e : Endpoint) : Json :=
  .obj [("latencies", e.latencies.encode .ofFloat), ("name", .str e.name),
    ("rx_bytes", e.received.encode .ofUInt64), ("tx_bytes", e.sent.encode .ofUInt64)]

def validate (e : Endpoint) : Except RecordError Unit :=
  if e.name.isEmpty then .error .emptyEndpointName else .ok ()

def ofFields (j : Json) : Except RecordError Endpoint := do
  let e ← (decode j).mapError .shape
  e.validate
  return e

def appendLatency (e : Endpoint) (value timestamp : Float) : Except RecordError Endpoint :=
  match e.latencies.append value timestamp with
  | .ok s => .ok { e with latencies := s }
  | .error t => .error (.timestampNotFinite t)

def appendSent (e : Endpoint) (value : UInt64) (timestamp : Float) :
    Except RecordError Endpoint :=
  match e.sent.append value timestamp with
  | .ok s => .ok { e with sent := s }
  | .error t => .error (.timestampNotFinite t)

def appendReceived (e : Endpoint) (value : UInt64) (timestamp : Float) :
    Except RecordError Endpoint :=
  match e.received.append value timestamp with
  | .ok s => .ok { e with received := s }
  | .error t => .error (.timestampNotFinite t)

end Endpoint

end GatewayTelemetry
