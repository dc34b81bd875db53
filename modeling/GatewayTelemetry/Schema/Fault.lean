import GatewayTelemetry.Json.Writer

/-! # Why a value does not fit its schema

A fault names the first problem met while a value is read against a schema. The wording of all
faults is in `Fault.message`.
-/

namespace GatewayTelemetry

inductive Fault where
  | invalidType (found : Json) (expected : String)
  | invalidValue (found : Json) (expected : String)
  | invalidLength (length : Nat) (expected : String)
  | unknownField (name : String) (declared : List String)
  | unknownVariant (name : String) (declared : List String)
  | missingField (name : String)
  | duplicateField (name : String)
  | seriesTooLong (length capacity : Nat)
  | timestampNotFinite (timestamp : Float)

namespace Fault

def describeNumber : Number → String
  | .int n _ => s!"integer `{n}`"
  | .real x _ => "floating point `" ++ Decimal.Style.message.write x ++ "`"

def describe : Json → String
  | .null => "null"
  | .bool true => "boolean `true`"
  | .bool false => "boolean `false`"
  | .num n => describeNumber n
  | .str s => "string " ++ Text.quoted s
  | .arr _ => "sequence"
  | .obj _ => "map"

def ticked (name : String) : String := "`" ++ name ++ "`"

def alternatives (none : String) : List String → String
  | [] => none
  | [a] => "expected " ++ ticked a
  | [a, b] => "expected " ++ ticked a ++ " or " ++ ticked b
  | names => "expected one of " ++ ", ".intercalate (names.map ticked)

def timestampText (t : Float) : String :=
  "timestamp must be a finite number, got " ++ Decimal.Style.message.write t

def message : Fault → String
  | invalidType found expected => "invalid type: " ++ describe found ++ ", expected " ++ expected
  | invalidValue found expected => "invalid value: " ++ describe found ++ ", expected " ++ expected
  | invalidLength n expected => s!"invalid length {n}, expected " ++ expected
  | unknownField name declared =>
    "unknown field " ++ ticked name ++ ", " ++ alternatives "there are no fields" declared
  | unknownVariant name declared =>
    "unknown variant " ++ ticked name ++ ", " ++ alternatives "there are no variants" declared
  | missingField name => "missing field " ++ ticked name
  | duplicateField name => "duplicate field " ++ ticked name
  | seriesTooLong n capacity => s!"series holds {n} points, capacity is {capacity}"
  | timestampNotFinite t => "Validation error: " ++ timestampText t

end Fault

end GatewayTelemetry
