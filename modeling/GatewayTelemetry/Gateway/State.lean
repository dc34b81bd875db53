import GatewayTelemetry.Gateway.Duration
import GatewayTelemetry.Json.Value

/-! # Gateways and their tunnels

Each gateway object reports its role and its connections under `status`. Only connections of an
active gateway that are connected count. The state of the deployment and the latency of a remote
cluster are both read off these connections.
-/

namespace GatewayTelemetry

inductive GatewayState where
  | unknown
  | notDeployed
  | disconnected
  | connected
  deriving Repr, DecidableEq

namespace Gateway

def textAt? (j : Json) (key : String) : Option String := (j.get? key).bind Json.asText?

def activeConnections (gateway : Json) : List Json :=
  match gateway.get? "status" with
  | none => []
  | some status =>
    if textAt? status "haStatus" = some "active" then
      (((status.get? "connections").bind Json.asItems?).getD []).filter fun c =>
        textAt? c "status" = some "connected"
    else []

def classify (gateways : List Json) : GatewayState :=
  if gateways.isEmpty then .notDeployed
  else if gateways.any fun g => !(activeConnections g).isEmpty then .connected
  else .disconnected

def remote? (connection : Json) : Option String :=
  (connection.get? "endpoint").bind fun e => textAt? e "cluster_id"

def averageText? (connection : Json) : Option String :=
  (connection.get? "latencyRTT").bind fun l => textAt? l "average"

def latency? (gateways : List Json) (remote : String) : Option Float :=
  ((gateways.flatMap activeConnections).find? fun c => remote? c = some remote).bind fun c =>
    (averageText? c).bind Duration.parse?

/-- Nothing is known of gateways that could not be listed. -/
def state (gateways : Option (List Json)) : GatewayState :=
  match gateways with
  | some gs => classify gs
  | none => .unknown

end Gateway

end GatewayTelemetry
