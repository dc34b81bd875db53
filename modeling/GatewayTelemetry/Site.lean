import GatewayTelemetry.Agent
import GatewayTelemetry.Cluster.Feed
import GatewayTelemetry.Config.Basic
import GatewayTelemetry.Counter
import GatewayTelemetry.Gateway.Listing
import GatewayTelemetry.Prometheus.Server
import GatewayTelemetry.RemoteSetting

/-! # The site of an agent

What surrounds an agent: the files of its host, the cluster objects in view, and the replies of
Prometheus and of the gateway's interface. A configuration tells how both cycles see it.
-/

namespace GatewayTelemetry

structure Site where
  files : FileTree
  cluster : Cluster
  prometheus : Prometheus.Server
  /-- Nothing if the gateway's interface does not answer. -/
  gateways : Option Gateway.ApiReply

namespace Site

def ofFiles (files : FileTree) : Site :=
  ⟨files, .empty, .unreachable "no connection", none⟩

def access (c : Config) : Prometheus.Access :=
  .ofAddress c.prometheusUrl c.queryWindow.toNat c.queryStep.toNat

def exporterIp (s : Site) (c : Config) (node : String) : Option String :=
  (s.cluster.exporter? c.exporterMarker node).map (·.ip)

def nodeSources (s : Site) (c : Config) : NodeCycle.Sources where
  live := s.cluster.nodeNames
  exporterIp := s.exporterIp c
  exporterPort := c.exporterPort.toNat
  ready := s.prometheus.isReady (access c)
  cpu := s.prometheus.cpu (access c)
  memory := s.prometheus.memory (access c)
  network := s.prometheus.network (access c)

def listed (s : Site) (c : Config) : Option (List Json) :=
  s.gateways.bind (Gateway.listed? c.gatewayNamespace)

def multiClusterSources (s : Site) (c : Config) : MultiClusterCycle.Sources where
  devicePresent := Counter.devicePresent s.files c.sysfsRoot c.device
  countersPresent := Counter.countersPresent s.files c.sysfsRoot c.device
  remote := RemoteSetting.read s.files c.settingsPath
  gateway := Gateway.state (s.listed c)
  received := Counter.read s.files c.sysfsRoot c.device .received
  sent := Counter.read s.files c.sysfsRoot c.device .sent
  latency := fun remote => (s.listed c).bind fun gs => Gateway.latency? gs remote

def sources (s : Site) (c : Config) : Agent.Sources := ⟨s.nodeSources c, s.multiClusterSources c⟩

def agent (s : Site) (c : Config) (stamp : Float) : Agent :=
  .ofOptions
    { channelCapacity := c.channelCapacity.toNat
      rateWindow := Config.millis c.rateLimit
      interval := Config.millis c.pollInterval
      stamp := fun _ => stamp }
    (s.sources c)

end Site

end GatewayTelemetry
