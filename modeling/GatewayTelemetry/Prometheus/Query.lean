/-! # Prometheus queries

Totals are asked for at one instant, usages over a range of time. All answers carry the address of
the exporter in the label `instance`.
-/

namespace GatewayTelemetry.Prometheus

inductive Query where
  | cpuTotal
  | cpuUsage
  | memoryTotal
  | memoryUsage
  | networkReceived
  | networkSent
  deriving Repr, DecidableEq

def selector (label : String) : String := "\x7b" ++ label ++ "\x7d"

/-- The rate at which a counter of all physical devices grows. -/
def deviceRate (counter : String) : String :=
  "sum by (instance, device) (rate(" ++ counter ++ selector "device!~\"lo|veth.*\"" ++ "[1m]))"

def Query.expression : Query → String
  | cpuTotal => "count by (instance) (node_cpu_seconds_total" ++ selector "mode=\"idle\"" ++ ")"
  | cpuUsage =>
    "1 - avg by (instance) (rate(node_cpu_seconds_total" ++ selector "mode=\"idle\"" ++ "[1m]))"
  | memoryTotal => "node_memory_MemTotal_bytes"
  | memoryUsage => "node_memory_MemTotal_bytes - node_memory_MemAvailable_bytes"
  | networkReceived => deviceRate "node_network_receive_bytes_total"
  | networkSent => deviceRate "node_network_transmit_bytes_total"

def Query.isRange : Query → Bool
  | cpuTotal | memoryTotal => false
  | _ => true

structure Access where
  base : String
  window : Nat
  step : Nat
  deriving Repr, DecidableEq

/-- Slashes at the end of the address are not part of it. -/
def Access.ofAddress (address : String) (window step : Nat) : Access :=
  ⟨String.ofList (address.toList.reverse.dropWhile (· = '/')).reverse, window, step⟩

structure Request where
  url : String
  expression : Option String
  step : Option String
  /-- Seconds between the ends of the range. -/
  span : Option Nat
  deriving Repr, DecidableEq

def Access.url (e : Access) (q : Query) : String :=
  e.base ++ (if q.isRange then "/api/v1/query_range" else "/api/v1/query")

def Access.readiness (e : Access) : Request := ⟨e.base ++ "/-/ready", none, none, none⟩

def Access.request (e : Access) (q : Query) : Request :=
  if q.isRange then ⟨e.url q, some q.expression, some s!"{max e.step 1}s", some e.window⟩
  else ⟨e.url q, some q.expression, none, none⟩

end GatewayTelemetry.Prometheus
