import GatewayTelemetry.Schema.Scalar

/-! # Record layouts

A layout declares the columns of a record. A record is written as an object of its columns, or as
an array of them in declared order with only trailing optional columns left out. Both forms read
as the same row: the given columns in declared order.
-/

namespace GatewayTelemetry

structure Column where
  name : String
  required : Bool
  check : Json → Except Fault Unit

def Column.must {α : Type} (name : String) (d : Decoder α) : Column :=
  ⟨name, true, fun j => (d j).map fun _ => ()⟩

def Column.may {α : Type} (name : String) (d : Decoder α) : Column :=
  ⟨name, false, fun j => (d j).map fun _ => ()⟩

/-- `closed` layouts refuse keys that are not declared. -/
structure Layout where
  title : String
  columns : List Column
  closed : Bool

abbrev Row := List (String × Json)

namespace Layout

def names (l : Layout) : List String := l.columns.map (·.name)

def column? (l : Layout) (name : String) : Option Column := l.columns.find? fun c => c.name == name

def visit (l : Layout) (seen : List String) : List (String × Json) → Except Fault Unit
  | [] => .ok ()
  | (k, v) :: rest =>
    match l.column? k with
    | none => if l.closed then .error (.unknownField k l.names) else l.visit seen rest
    | some c =>
      if seen.contains k then .error (.duplicateField k)
      else do
        c.check v
        l.visit (k :: seen) rest

def gather (fields : List (String × Json)) : List Column → Except Fault Row
  | [] => .ok []
  | c :: rest =>
    match fields.find? fun f => f.1 == c.name with
    | some f => do return (c.name, f.2) :: (← gather fields rest)
    | none => if c.required then .error (.missingField c.name) else gather fields rest

def keyedRow (l : Layout) (fields : List (String × Json)) : Except Fault Row := do
  l.visit [] fields
  gather fields l.columns

def sizeText (l : Layout) : String :=
  let n := l.columns.length
  l.title ++ s!" with {n} element" ++ (if n = 1 then "" else "s")

def zipRow (l : Layout) (index total : Nat) : List Column → List Json → Except Fault Row
  | [], [] => .ok []
  | [], _ :: _ => .error (.invalidLength total Decoder.tooManyElements)
  | c :: cs, [] =>
    if c.required then .error (.invalidLength index l.sizeText) else l.zipRow index total cs []
  | c :: cs, v :: vs => do
    c.check v
    return (c.name, v) :: (← l.zipRow (index + 1) total cs vs)

def row (l : Layout) : Json → Except Fault Row
  | .obj fields => l.keyedRow fields
  | .arr items => l.zipRow 0 items.length l.columns items
  | j => .error (.invalidType j l.title)

end Layout

namespace Row

def get {α : Type} (r : Row) (name : String) (d : Decoder α) : Except Fault α :=
  match r.find? fun f => f.1 == name with
  | some f => d f.2
  | none => .error (.missingField name)

def getD {α : Type} (r : Row) (name : String) (d : Decoder α) (default : α) : Except Fault α :=
  match r.find? fun f => f.1 == name with
  | some f => d f.2
  | none => .ok default

end Row

end GatewayTelemetry
