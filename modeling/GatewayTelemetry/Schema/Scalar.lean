import GatewayTelemetry.Schema.Fault

/-! # Reading plain values

A decoder turns a value into a typed one or names the first fault. Integers are accepted where a
double is asked for, doubles never where an integer is asked for.
-/

namespace GatewayTelemetry

abbrev Decoder (α : Type) := Json → Except Fault α

namespace Decoder

def bounded (word : String) (low high : Int) : Decoder Int
  | .num (.int n h) =>
    if low ≤ n ∧ n < high then .ok n else .error (.invalidValue (.num (.int n h)) word)
  | j => .error (.invalidType j word)

def int64 : Decoder Int64 := fun j =>
  (bounded "i64" (-9223372036854775808) 9223372036854775808 j).map Int64.ofInt

def uint64 : Decoder UInt64 := fun j =>
  (bounded "u64" 0 UInt64.size j).map fun n => n.toNat.toUInt64

/-- A count of things held in memory; same range as a 64-bit word. -/
def size : Decoder UInt64 := fun j =>
  (bounded "usize" 0 UInt64.size j).map fun n => n.toNat.toUInt64

def uint16 : Decoder UInt16 := fun j =>
  (bounded "u16" 0 UInt16.size j).map fun n => n.toNat.toUInt16

def float : Decoder Float
  | .num (.int n _) => .ok (Float.ofInt n)
  | .num (.real x _) => .ok x
  | j => .error (.invalidType j "f64")

def bool : Decoder Bool
  | .bool b => .ok b
  | j => .error (.invalidType j "a boolean")

def text : Decoder String
  | .str s => .ok s
  | j => .error (.invalidType j "a string")

def path : Decoder String
  | .str s => .ok s
  | j => .error (.invalidType j "path string")

def value : Decoder Json := .ok

def nullable {α : Type} (d : Decoder α) : Decoder (Option α)
  | .null => .ok none
  | j => (d j).map some

def list {α : Type} (d : Decoder α) : Decoder (List α)
  | .arr items => items.mapM d
  | j => .error (.invalidType j "a sequence")

def tooManyElements : String := "fewer elements in array"

def pair {α β : Type} (first : Decoder α) (second : Decoder β) : Decoder (α × β)
  | .arr items =>
    match items with
    | [] => .error (.invalidLength 0 "a tuple of size 2")
    | x :: rest => do
      let a ← first x
      match rest with
      | [] => .error (.invalidLength 1 "a tuple of size 2")
      | y :: more =>
        let b ← second y
        if more.isEmpty then .ok (a, b) else .error (.invalidLength items.length tooManyElements)
  | j => .error (.invalidType j "a tuple of size 2")

/-- One of a few named variants, written as its name or as the only key of an object over null. -/
def variant {α : Type} (table : List (String × α)) : Decoder α
  | .str name => pick name
  | .obj [(name, content)] => do
    let a ← pick name
    match content with
    | .null => .ok a
    | j => .error (.invalidType j "unit")
  | .obj fields => .error (.invalidValue (.obj fields) "map with a single key")
  | j => .error (.invalidType j "string or map")
where
  pick (name : String) : Except Fault α :=
    match table.find? fun e => e.1 == name with
    | some e => .ok e.2
    | none => .error (.unknownVariant name (table.map (·.1)))

end Decoder

end GatewayTelemetry
