import GatewayTelemetry.Json.Shape
import GatewayTelemetry.Text.TimeStamp

/-! # Metadata

Objects of the cluster and lists of them carry metadata. None of it is used here, but what is given
has to have the shape it is known by.
-/

namespace GatewayTelemetry.Metadata

def optionalText : Shape := .nullable .text

def optionalFlag : Shape := .nullable .flag

def optionalInteger : Shape := .nullable .integer

def optionalInstant : Shape := .nullable (.textWith TimeStamp.isInstant)

def notes : Shape := .nullable (.table .text)

def owner : Shape :=
  .record
    [("apiVersion", optionalText), ("blockOwnerDeletion", optionalFlag),
      ("controller", optionalFlag), ("kind", optionalText), ("name", optionalText),
      ("uid", optionalText)]

def managedField : Shape :=
  .record
    [("apiVersion", optionalText), ("fieldsType", optionalText), ("fieldsV1", .value),
      ("manager", optionalText), ("operation", optionalText), ("subresource", optionalText),
      ("time", optionalInstant)]

def ofObject : Shape :=
  .record
    [("annotations", notes), ("creationTimestamp", optionalInstant),
      ("deletionGracePeriodSeconds", optionalInteger), ("deletionTimestamp", optionalInstant),
      ("finalizers", .nullable (.list .text)), ("generateName", optionalText),
      ("generation", optionalInteger), ("labels", notes),
      ("managedFields", .nullable (.list managedField)), ("name", optionalText),
      ("namespace", optionalText), ("ownerReferences", .nullable (.list owner)),
      ("resourceVersion", optionalText), ("selfLink", optionalText), ("uid", optionalText)]

def ofList : Shape :=
  .record
    [("continue", optionalText), ("remainingItemCount", optionalInteger),
      ("resourceVersion", optionalText), ("selfLink", optionalText)]

end GatewayTelemetry.Metadata
