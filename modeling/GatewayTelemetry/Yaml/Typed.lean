import GatewayTelemetry.Decimal.Read
import GatewayTelemetry.Yaml.Node

/-! # Typed readings of a node

What a plain scalar denotes depends on what is asked for: any scalar is a text, while words, flags
and nulls have spellings of their own that a quoted scalar never denotes. The readings are of nodes
that are themselves behind their anchors and aliases.
-/

namespace GatewayTelemetry.Yaml

def natOfBase (base : Nat) (digits : List Char) : Option Nat := do
  let ds ← digits.mapM hexDigit?
  if ds.all fun d => d < base then some (ds.foldl (fun n d => n * base + d) 0) else none

def natOf? : List Char → Option Nat
  | [] => none
  | '0' :: 'x' :: d :: rest => natOfBase 16 (d :: rest)
  | '0' :: 'o' :: d :: rest => natOfBase 8 (d :: rest)
  | '0' :: 'b' :: d :: rest => natOfBase 2 (d :: rest)
  | '0' :: _ :: _ => none
  | ds => natOfBase 10 ds

def wordOf? (text : List Char) : Option UInt64 :=
  (natOf? (Decimal.dropPlus text)).bind fun n => if n < UInt64.size then some n.toUInt64 else none

def flagOf? (text : String) : Option Bool :=
  if text = "true" || text = "True" || text = "TRUE" then some true
  else if text = "false" || text = "False" || text = "FALSE" then some false
  else none

def isNull (text : String) : Bool :=
  text = "null" || text = "Null" || text = "NULL" || text = "~"

def standardTag (name : String) : Option Octets := some (.ofText (standardExpansion ++ name))

namespace Node

def bare? (type : String) : Node → Option String
  | scalar .plain _ text => some text
  | scalar .literal tag text => if tag = standardTag type then some text else none
  | _ => none

def text? : Node → Option String
  | scalar _ _ text => some text
  | _ => none

def word? (n : Node) : Option UInt64 := (n.bare? "int").bind fun t => wordOf? t.toList

def flag? (n : Node) : Option Bool := (n.bare? "bool").bind flagOf?

/-- A text or null. A plain scalar tagged as null has to spell it. -/
def nullableText? : Node → Option (Option String)
  | scalar .plain none text => some (if text.isEmpty || isNull text then none else some text)
  | scalar .plain tag text =>
    if tag = standardTag "null" then (if isNull text then some none else none)
    else some (some text)
  | n => n.text?.map some

def members? (root : Node) : Option (List (String × Node)) :=
  match root.resolved root with
  | mapping pairs =>
    pairs.mapM fun p => (root.resolved p.1).text?.map fun key => (key, root.resolved p.2)
  | scalar .plain _ "" => some []
  | _ => none

end Node

/-- The members of the mapping that a text is; a text without document has none. -/
def members? (text : String) : Option (List (String × Node)) := do
  match ← document? text with
  | some node => node.members?
  | none => return []

end GatewayTelemetry.Yaml
