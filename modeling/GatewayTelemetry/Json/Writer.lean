import GatewayTelemetry.Decimal.Notation
import GatewayTelemetry.Json.Value
import GatewayTelemetry.Text.Quoted

/-! # Writing JSON text

The compact form has no blanks; the pretty form puts every item and member on a line of its own,
two columns deeper than its container.
-/

namespace GatewayTelemetry.Json

def hexUnit (n : Nat) : List Char :=
  let ds := Text.hexDigits n
  List.replicate (4 - ds.length) '0' ++ ds

def escapeChar (c : Char) : List Char :=
  if c = '"' then ['\\', '"']
  else if c = '\\' then ['\\', '\\']
  else if c = '\n' then ['\\', 'n']
  else if c = '\r' then ['\\', 'r']
  else if c = '\t' then ['\\', 't']
  else if c = '\x08' then ['\\', 'b']
  else if c = '\x0c' then ['\\', 'f']
  else if c.toNat < 0x20 then '\\' :: 'u' :: hexUnit c.toNat
  else [c]

def writeText (s : String) : String :=
  String.ofList ('"' :: s.toList.flatMap escapeChar ++ ['"'])

def writeNumber : Number → String
  | .int n _ => toString n
  | .real x _ => Decimal.Style.message.write x

def braced (inner : String) : String := "\x7b" ++ inner ++ "\x7d"

def bracketed (inner : String) : String := "[" ++ inner ++ "]"

mutual

def compact : Json → String
  | .null => "null"
  | .bool true => "true"
  | .bool false => "false"
  | .num n => writeNumber n
  | .str s => writeText s
  | .arr items => bracketed (",".intercalate (compactItems items))
  | .obj fields => braced (",".intercalate (compactFields fields))

def compactItems : List Json → List String
  | [] => []
  | j :: rest => compact j :: compactItems rest

def compactFields : List (String × Json) → List String
  | [] => []
  | (k, v) :: rest => (writeText k ++ ":" ++ compact v) :: compactFields rest

end

def indent (depth : Nat) : String := String.ofList ('\n' :: List.replicate (2 * depth) ' ')

def block (depth : Nat) (parts : List String) : String :=
  indent (depth + 1) ++ ("," ++ indent (depth + 1)).intercalate parts ++ indent depth

mutual

def prettyAt (depth : Nat) : Json → String
  | .null => "null"
  | .bool true => "true"
  | .bool false => "false"
  | .num n => writeNumber n
  | .str s => writeText s
  | .arr [] => "[]"
  | .arr (j :: rest) => bracketed (block depth (prettyAt (depth + 1) j :: prettyItems (depth + 1) rest))
  | .obj [] => braced ""
  | .obj ((k, v) :: rest) =>
    braced (block depth
      ((writeText k ++ ": " ++ prettyAt (depth + 1) v) :: prettyFields (depth + 1) rest))

def prettyItems (depth : Nat) : List Json → List String
  | [] => []
  | j :: rest => prettyAt depth j :: prettyItems depth rest

def prettyFields (depth : Nat) : List (String × Json) → List String
  | [] => []
  | (k, v) :: rest => (writeText k ++ ": " ++ prettyAt depth v) :: prettyFields depth rest

end

def pretty (j : Json) : String := prettyAt 0 j

end GatewayTelemetry.Json
