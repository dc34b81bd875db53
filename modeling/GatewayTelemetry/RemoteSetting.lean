import GatewayTelemetry.Error
import GatewayTelemetry.Files.Tree
import GatewayTelemetry.Text.Blank
import GatewayTelemetry.Yaml.Typed

/-! # The configured remote cluster

The gateway's settings file names the remote cluster once the gateway has joined a broker. A file
that is absent, blank or silent about the remote means that there is none.
-/

namespace GatewayTelemetry.RemoteSetting

def key : String := "remote_cluster_name"

def nameOf (text : String) : Option String :=
  let name := Text.trimmed text
  if name.isEmpty then none else some name

/-- The remote of a mapping; refused if it is given twice or is no text. Other members are not
looked at. -/
def ofMembers? (members : List (String × Yaml.Node)) : Option (Option String) :=
  match members.filter fun m => m.1 == key with
  | [] => some none
  | [m] => m.2.nullableText?.map fun t => t.bind nameOf
  | _ => none

def ofText? (text : String) : Option (Option String) :=
  if Text.isBlankText text then some none else (Yaml.members? text).bind ofMembers?

def read (tree : FileTree) (path : String) : Except SourceError (Option String) :=
  match tree.readText path with
  | .error .notFound => .ok none
  | .error fault => .error (.query (path ++ ": " ++ fault.message))
  | .ok text =>
    match ofText? text with
    | some name => .ok name
    | none => .error (.query (path ++ ": not a settings document"))

end GatewayTelemetry.RemoteSetting
