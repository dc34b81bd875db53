/-! # Reported metrics

A metric as a source reports it: for the address of an exporter, not for a node.
-/

namespace GatewayTelemetry

structure Reported (α : Type) where
  address : String
  metric : α

def Reported.find? {α : Type} (reports : List (Reported α)) (address : String) : Option α :=
  (reports.find? fun r => r.address == address).map (·.metric)

end GatewayTelemetry
