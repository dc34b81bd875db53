/-! # JSON values

A number is either an integer that fits in a signed or an unsigned 64-bit word, or a finite
double; nothing else is a number. An object is the list of its members. In canonical form the
members of every object are in strictly ascending key order, and of two members with one key the
later one stays.
-/

namespace GatewayTelemetry

inductive Number where
  | int (n : Int) (range : -9223372036854775808 ≤ n ∧ n < 18446744073709551616)
  | real (x : Float) (finite : x.isFinite = true)

inductive Json where
  | null
  | bool (b : Bool)
  | num (n : Number)
  | str (s : String)
  | arr (items : List Json)
  | obj (fields : List (String × Json))

instance : Inhabited Json := ⟨.null⟩

def Number.ofInt? (n : Int) : Option Number :=
  if h : -9223372036854775808 ≤ n ∧ n < 18446744073709551616 then some (.int n h) else none

def Number.ofFloat? (x : Float) : Option Number :=
  if h : x.isFinite = true then some (.real x h) else none

namespace Json

/-- A double as a value; one that is not finite has no number and becomes null. -/
def ofFloat (x : Float) : Json :=
  match Number.ofFloat? x with
  | some n => .num n
  | none => .null

def ofUInt64 (n : UInt64) : Json :=
  .num (.int n.toNat ⟨by omega, by have := n.toNat_lt; omega⟩)

def ofInt64 (n : Int64) : Json :=
  .num (.int n.toInt ⟨n.le_toInt, by have := n.toInt_lt; omega⟩)

/-- A count as a value; every count in use fits in a word. -/
def ofNat (n : Nat) : Json :=
  match Number.ofInt? n with
  | some k => .num k
  | none => .null

def ofOption {α : Type} (encode : α → Json) : Option α → Json
  | some a => encode a
  | none => .null

def get? (j : Json) (key : String) : Option Json :=
  match j with
  | .obj fields => (fields.find? fun f => f.1 == key).map (·.2)
  | _ => none

def asText? : Json → Option String
  | .str s => some s
  | _ => none

def asItems? : Json → Option (List Json)
  | .arr items => some items
  | _ => none

/-- Puts a member in its place unless its key is there already. -/
def addMember (k : String) (v : Json) : List (String × Json) → List (String × Json)
  | [] => [(k, v)]
  | f :: rest =>
    if k < f.1 then (k, v) :: f :: rest
    else if k = f.1 then f :: rest
    else f :: addMember k v rest

mutual

def canonical : Json → Json
  | .null => .null
  | .bool b => .bool b
  | .num n => .num n
  | .str s => .str s
  | .arr items => .arr (canonicalItems items)
  | .obj fields => .obj (canonicalFields fields)

def canonicalItems : List Json → List Json
  | [] => []
  | j :: rest => canonical j :: canonicalItems rest

def canonicalFields : List (String × Json) → List (String × Json)
  | [] => []
  | (k, v) :: rest => addMember k (canonical v) (canonicalFields rest)

end

end Json

end GatewayTelemetry
