import GatewayTelemetry.Schema.Fault

/-! # Why a record is refused

A record is refused for its shape or because it breaks a check of its own. All of these are
validation errors.
-/

namespace GatewayTelemetry

/-- The two resources with a total and a usage series. -/
inductive Resource where
  | cpu
  | memory
  deriving Repr, DecidableEq

def Resource.name : Resource → String
  | .cpu => "cpu"
  | .memory => "memory"

inductive RecordError where
  | shape (fault : Fault)
  | negativeTotal (resource : Resource) (total : Int64)
  | emptyDevice
  | emptyNodeName
  | emptyEndpointName
  | misplacedEndpoint (key name : String)
  | timestampNotFinite (timestamp : Float)

namespace RecordError

def detail : RecordError → String
  | shape fault => fault.message
  | negativeTotal resource total =>
    resource.name ++ s!" total must not be negative, got {total.toInt}"
  | emptyDevice => "network metric device must not be empty"
  | emptyNodeName => "node metric name must not be empty"
  | emptyEndpointName => "endpoint name must not be empty"
  | misplacedEndpoint key name => "endpoint keyed as " ++ key ++ " is named " ++ name
  | timestampNotFinite t => Fault.timestampText t

def message (e : RecordError) : String := "Validation error: " ++ e.detail

end RecordError

end GatewayTelemetry
