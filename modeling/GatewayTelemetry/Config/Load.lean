import GatewayTelemetry.Config.Basic
import GatewayTelemetry.Files.Tree
import GatewayTelemetry.Text.Blank
import GatewayTelemetry.Yaml.Typed

/-! # Layers of the configuration

Defaults lie below the configuration file, and the file below the overrides. Only the outcome of
all layers has to be valid; the file alone has to be well formed.
-/

namespace GatewayTelemetry

namespace Config

structure Overrides where
  pollInterval : Option UInt64
  prometheusUrl : Option String
  deriving Repr, DecidableEq

def Overrides.none : Overrides := ⟨.none, .none⟩

def Overrides.apply (o : Overrides) (c : Config) : Config :=
  { c with
    pollInterval := o.pollInterval.getD c.pollInterval
    prometheusUrl := o.prometheusUrl.getD c.prometheusUrl }

def Kind.ofNode? (kind : Kind) (n : Yaml.Node) : Option Json :=
  match kind with
  | word | size | port => n.word?.map .ofUInt64
  | text | path => n.text?.map .str
  | flag => n.flag?.map .bool

def assignment? (member : String × Yaml.Node) : Option (String × Json) := do
  let kind ← settings.lookup member.1
  return (member.1, ← kind.ofNode? member.2)

/-- The configuration of a mapping; refused if any member is unknown, repeated or ill-typed. -/
def ofMembers? (members : List (String × Yaml.Node)) : Option Config := do
  let fields ← members.mapM assignment?
  (decode (.obj fields)).toOption

/-- The file layer over the defaults. A blank file sets nothing. -/
def ofText? (text : String) : Option Config :=
  if Text.isBlankText text then some standard else (Yaml.members? text).bind ofMembers?

def ofFile (tree : FileTree) (path : String) : Except RunError Config :=
  match tree.readText path with
  | .error fault => .error (.unreadableConfig path fault.message)
  | .ok text =>
    match ofText? text with
    | some c => .ok c
    | none => .error (.invalidConfig path)

def load (tree : FileTree) (path : Option String) (o : Overrides) : Except RunError Config := do
  let c ← match path with
    | some path => ofFile tree path
    | none => .ok standard
  (o.apply c).checked.mapError .agent

end Config

end GatewayTelemetry
