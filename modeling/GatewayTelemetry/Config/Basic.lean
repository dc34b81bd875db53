import GatewayTelemetry.Error
import GatewayTelemetry.Schema.Layout

/-! # The configuration

Fifteen settings, each with a default, so that a partial configuration is enough. A configuration
is valid if none of five checks fails; they run in a fixed order.
-/

namespace GatewayTelemetry

structure Config where
  /-- Seconds between the cycles of one target. -/
  pollInterval : UInt64
  /-- Least seconds between two pushes of one target. -/
  rateLimit : UInt64
  prometheusUrl : String
  prometheusTimeout : UInt64
  queryWindow : UInt64
  queryStep : UInt64
  /-- Part of the name of every exporter pod. -/
  exporterMarker : String
  exporterPort : UInt16
  device : String
  sysfsRoot : String
  settingsPath : String
  gatewayNamespace : String
  channelCapacity : UInt64
  nodePaused : Bool
  multiClusterPaused : Bool
  deriving Repr, DecidableEq

namespace Config

def standard : Config where
  pollInterval := 2
  rateLimit := 5
  prometheusUrl := "http://prometheus-k8s.monitoring.svc:9090"
  prometheusTimeout := 5
  queryWindow := 600
  queryStep := 10
  exporterMarker := "node-exporter"
  exporterPort := 9100
  device := "vx-submariner"
  sysfsRoot := "/sys"
  settingsPath := "/etc/meshgate/settings.yaml"
  gatewayNamespace := "submariner-operator"
  channelCapacity := 1024
  nodePaused := false
  multiClusterPaused := true

instance : Inhabited Config := ⟨standard⟩

inductive Kind where
  | word
  | size
  | port
  | text
  | path
  | flag
  deriving Repr, DecidableEq

def Kind.column (name : String) : Kind → Column
  | word => .may name Decoder.uint64
  | size => .may name Decoder.size
  | port => .may name Decoder.uint16
  | text => .may name Decoder.text
  | path => .may name Decoder.path
  | flag => .may name Decoder.bool

def settings : List (String × Kind) :=
  [("poll_interval_secs", .word), ("rate_limit_secs", .word), ("prometheus_url", .text),
    ("prometheus_timeout_secs", .word), ("query_window_secs", .word), ("query_step_secs", .word),
    ("exporter_marker", .text), ("exporter_port", .port), ("multi_cluster_device", .text),
    ("sysfs_root", .path), ("settings_path", .path), ("submariner_namespace", .text),
    ("event_channel_capacity", .size), ("node_watch_paused", .flag),
    ("multi_cluster_watch_paused", .flag)]

def layout : Layout := ⟨"struct AgentConfig", settings.map fun s => s.2.column s.1, true⟩

def ofRow (r : Row) : Except Fault Config := do
  let pollInterval ← r.getD "poll_interval_secs" Decoder.uint64 standard.pollInterval
  let rateLimit ← r.getD "rate_limit_secs" Decoder.uint64 standard.rateLimit
  let prometheusUrl ← r.getD "prometheus_url" Decoder.text standard.prometheusUrl
  let prometheusTimeout ← r.getD "prometheus_timeout_secs" Decoder.uint64 standard.prometheusTimeout
  let queryWindow ← r.getD "query_window_secs" Decoder.uint64 standard.queryWindow
  let queryStep ← r.getD "query_step_secs" Decoder.uint64 standard.queryStep
  let exporterMarker ← r.getD "exporter_marker" Decoder.text standard.exporterMarker
  let exporterPort ← r.getD "exporter_port" Decoder.uint16 standard.exporterPort
  let device ← r.getD "multi_cluster_device" Decoder.text standard.device
  let sysfsRoot ← r.getD "sysfs_root" Decoder.path standard.sysfsRoot
  let settingsPath ← r.getD "settings_path" Decoder.path standard.settingsPath
  let gatewayNamespace ← r.getD "submariner_namespace" Decoder.text standard.gatewayNamespace
  let channelCapacity ← r.getD "event_channel_capacity" Decoder.size standard.channelCapacity
  let nodePaused ← r.getD "node_watch_paused" Decoder.bool standard.nodePaused
  let multiClusterPaused ←
    r.getD "multi_cluster_watch_paused" Decoder.bool standard.multiClusterPaused
  return ⟨pollInterval, rateLimit, prometheusUrl, prometheusTimeout, queryWindow, queryStep,
    exporterMarker, exporterPort, device, sysfsRoot, settingsPath, gatewayNamespace,
    channelCapacity, nodePaused, multiClusterPaused⟩

def decode : Decoder Config := fun j => do
  ofRow (← layout.row j)

def encode (c : Config) : Json :=
  .obj [("event_channel_capacity", .ofUInt64 c.channelCapacity),
    ("exporter_marker", .str c.exporterMarker), ("exporter_port", .ofNat c.exporterPort.toNat),
    ("multi_cluster_device", .str c.device), ("multi_cluster_watch_paused", .bool c.multiClusterPaused),
    ("node_watch_paused", .bool c.nodePaused), ("poll_interval_secs", .ofUInt64 c.pollInterval),
    ("prometheus_timeout_secs", .ofUInt64 c.prometheusTimeout),
    ("prometheus_url", .str c.prometheusUrl), ("query_step_secs", .ofUInt64 c.queryStep),
    ("query_window_secs", .ofUInt64 c.queryWindow), ("rate_limit_secs", .ofUInt64 c.rateLimit),
    ("settings_path", .str c.settingsPath), ("submariner_namespace", .str c.gatewayNamespace),
    ("sysfs_root", .str c.sysfsRoot)]

def fault? (c : Config) : Option ConfigFault :=
  if c.pollInterval = 0 then some .pollInterval
  else if c.queryStep = 0 then some .queryStep
  else if c.channelCapacity = 0 then some .channelCapacity
  else if c.prometheusUrl.isEmpty then some .prometheusUrl
  else if c.device.isEmpty then some .device
  else none

def checked (c : Config) : Except AgentError Config :=
  match c.fault? with
  | some fault => .error (.config fault)
  | none => .ok c

/-- Seconds as milliseconds, beyond the range of a word if need be. -/
def millis (seconds : UInt64) : Nat := seconds.toNat * 1000

end Config

end GatewayTelemetry
