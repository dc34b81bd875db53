import GatewayTelemetry.Cluster.Metadata
import GatewayTelemetry.Gateway.Address
import GatewayTelemetry.Json.Reader

/-! # Listed gateways

A reply of the cluster's interface lists gateway objects. The metadata of the list and of each
object has to have its shape and may be given once; all other members have to be values. A reply
that is no such list, or that reports a failure, lists nothing.
-/

namespace GatewayTelemetry.Gateway

structure ApiReply where
  status : Nat
  body : String

def ApiReply.isFailure (r : ApiReply) : Bool := 400 ≤ r.status && r.status < 600

/-- The members of an object, drafts behind their keys. -/
abbrev Members := List (Option String × Draft)

def Members.at (fields : Members) (key : String) : List Draft :=
  (fields.filter fun f => f.1 = some key).map (·.2)

def Members.without (fields : Members) (keys : List String) : Members :=
  fields.filter fun f => f.1.all fun key => !keys.contains key

def metadataFits (shape : Shape) (room : Nat) (fields : Members) : Bool :=
  match Members.at fields "metadata" with
  | [] => true
  | [d] => shape.fits room d
  | _ => false

/-- A gateway object without its metadata; of two members with one key the later one stays. -/
def object? (room : Nat) : Draft → Option Json
  | .obj fields =>
    if metadataFits Metadata.ofObject room fields then
      (Draft.fieldValues? room (Members.without fields ["metadata"])).map fun members =>
        Json.canonical (.obj members)
    else none
  | _ => none

/-- The objects of a list document; null in the place of the objects is an empty list. -/
def items? : Draft → Option (List Json)
  | .obj fields => do
    let room := Json.nestingLimit - 1
    if !metadataFits Metadata.ofList room fields then none
    let _ ← Draft.fieldValues? room (Members.without fields ["metadata", "items"])
    match Members.at fields "items" with
    | [.null] => some []
    | [.arr items] => items.mapM (object? (room - 2))
    | _ => none
  | _ => none

def listed? (space : String) (reply : ApiReply) : Option (List Json) :=
  if (requestPath? space).isNone || reply.isFailure then none
  else (Draft.read? reply.body).bind items?

end GatewayTelemetry.Gateway
