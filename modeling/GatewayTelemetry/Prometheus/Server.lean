import GatewayTelemetry.Prometheus.Address
import GatewayTelemetry.Prometheus.Query
import GatewayTelemetry.Prometheus.Usage

/-! # Asking a server

A server is known by its replies; an address that no request can be sent to has none. Each usage
takes two queries; if both fail, the failure of the first one counts.
-/

namespace GatewayTelemetry.Prometheus

structure Server where
  readiness : Reply
  reply : Query → Reply

def Server.unreachable (detail : String) : Server := ⟨.unanswered detail, fun _ => .unanswered detail⟩

variable (e : Access) (s : Server)

def Server.isReady : Bool :=
  match s.readiness with
  | .received status _ => isSendable e.readiness.url && isSuccess status
  | _ => false

def Server.answer (q : Query) : Reply :=
  if isSendable (e.url q) then s.reply q else .broken "builder error"

def Server.instant (q : Query) : Except SourceError (List InstantSample) :=
  readInstant (e.url q) (s.answer e q)

def Server.range (q : Query) : Except SourceError (List RangeSeries) :=
  readRange (e.url q) (s.answer e q)

def Server.cpu : Except SourceError (List (Reported Usage)) := do
  return joinUsages (← s.instant e .cpuTotal) (← s.range e .cpuUsage)

def Server.memory : Except SourceError (List (Reported Usage)) := do
  return joinUsages (← s.instant e .memoryTotal) (← s.range e .memoryUsage)

def Server.network : Except SourceError (List (Reported NetworkUsage)) := do
  return joinNetwork (← s.range e .networkReceived) (← s.range e .networkSent)

end GatewayTelemetry.Prometheus
