import GatewayTelemetry.Record.Error
import GatewayTelemetry.Record.Event

/-! # Failures of sources and of the agent

A source fails in one of three ways. The agent's failures wrap those of its parts or name what
it could not do.
-/

namespace GatewayTelemetry

inductive SourceError where
  /-- Not contacted at all; tried again in the next cycle. -/
  | unreachable (detail : String)
  /-- A file or object that does not exist. -/
  | missing (detail : String)
  | query (detail : String)
  deriving Repr, DecidableEq

def SourceError.message : SourceError → String
  | unreachable d => "Source unreachable: " ++ d
  | missing d => "Source data missing: " ++ d
  | query d => "Source query failed: " ++ d

inductive ConfigFault where
  | pollInterval
  | queryStep
  | channelCapacity
  | prometheusUrl
  | device
  deriving Repr, DecidableEq

def ConfigFault.message : ConfigFault → String
  | pollInterval => "poll_interval_secs must be at least 1"
  | queryStep => "query_step_secs must be at least 1"
  | channelCapacity => "event_channel_capacity must be at least 1"
  | prometheusUrl => "prometheus_url is empty"
  | device => "multi_cluster_device is empty"

inductive AgentError where
  | nodeNotFound (name : String)
  | record (error : RecordError)
  | source (error : SourceError)
  | unknownTarget (target : Target)
  | duplicateTarget (target : Target)
  | channelFull (target : Target)
  | channelClosed
  | config (fault : ConfigFault)

def AgentError.message : AgentError → String
  | nodeNotFound name => "Node not found: " ++ name
  | record e => "Model error: " ++ e.message
  | source e => e.message
  | unknownTarget t => "No watch registered for target " ++ t.name
  | duplicateTarget t => "Watch already registered for target " ++ t.name
  | channelFull t => "Event channel full, event for " ++ t.name ++ " dropped"
  | channelClosed => "Event channel closed"
  | config f => "Configuration error: " ++ f.message

inductive RunError where
  | agent (error : AgentError)
  | unreadableConfig (path reason : String)
  | invalidConfig (path : String)
  | syncTimeout (seconds : Nat)

/-- The reason why a configuration file is invalid is left to the reader of the file. -/
def RunError.message : RunError → String
  | agent e => "Agent error: " ++ e.message
  | unreadableConfig path reason =>
    "Configuration error: Failed to read " ++ path ++ ": " ++ reason
  | invalidConfig path => "Invalid configuration file " ++ path
  | syncTimeout n => s!"Cluster cache did not sync within {n} seconds"

end GatewayTelemetry
