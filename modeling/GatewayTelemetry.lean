import GatewayTelemetry.Main
import GatewayTelemetry.Proofs.Agent.Creation
import GatewayTelemetry.Proofs.Agent.Window
import GatewayTelemetry.Proofs.Cluster.Mirror
import GatewayTelemetry.Proofs.Polling.Timetable
import GatewayTelemetry.Proofs.Cache.EndpointWrite
import GatewayTelemetry.Proofs.Cache.EndpointHistory
import GatewayTelemetry.Proofs.Cache.NodeWrite
import GatewayTelemetry.Proofs.Cache.NodeHistory
import GatewayTelemetry.Proofs.Collection.Undisturbed
import GatewayTelemetry.Proofs.Decimal.Finite
import GatewayTelemetry.Proofs.Record.ReadBack
import GatewayTelemetry.Proofs.Prometheus.Answer
import GatewayTelemetry.Proofs.Cache.Demands
import GatewayTelemetry.Proofs.Collection.Operations
import GatewayTelemetry.Proofs.Agent.Payload
import GatewayTelemetry.Proofs.Channel
import GatewayTelemetry.Proofs.Polling.Cancellation
import GatewayTelemetry.Proofs.Polling.Isolation
import GatewayTelemetry.Proofs.Collection.Disturbed
import GatewayTelemetry.Proofs.Schema.Meaning
import GatewayTelemetry.Proofs.Schema.Row
import GatewayTelemetry.Proofs.Record.Meaning
import GatewayTelemetry.Proofs.Record.Kind
import GatewayTelemetry.Proofs.Record.Canonical
import GatewayTelemetry.Proofs.Record.Edited
import GatewayTelemetry.Proofs.Collection.Attribution
import GatewayTelemetry.Proofs.Cache.Halves
import GatewayTelemetry.Proofs.Collection.Sample
import GatewayTelemetry.Proofs.Agent.InStep
import GatewayTelemetry.Proofs.Agent.Pushed
import GatewayTelemetry.Proofs.Snapshot
import GatewayTelemetry.Proofs.Cache.InPlace
import GatewayTelemetry.Proofs.Cache.Refusal
import GatewayTelemetry.Proofs.Cache.Reconciliation
import GatewayTelemetry.Proofs.Decimal.Value
import GatewayTelemetry.Proofs.Prometheus.OuterJoin
import GatewayTelemetry.Proofs.Prometheus.Busiest
import GatewayTelemetry.Proofs.Cache.Reading
import GatewayTelemetry.Proofs.Cluster.Enumeration
import GatewayTelemetry.Proofs.Cluster.PodKey
import GatewayTelemetry.Proofs.Gateway.Duration
import GatewayTelemetry.Proofs.Gateway.Tunnel
import GatewayTelemetry.Proofs.Series.History
import GatewayTelemetry.Proofs.Prometheus.Verdict
import GatewayTelemetry.Proofs.Config.Layers
import GatewayTelemetry.Proofs.Counter
import GatewayTelemetry.Proofs.Cluster.Backoff
