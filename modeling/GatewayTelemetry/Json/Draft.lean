import GatewayTelemetry.Json.Value

/-! # Drafts of JSON values

A draft is what the grammar alone makes of a JSON text. Whether a number is in range, whether an
escaped text has an unpaired surrogate and how deep containers nest is settled only when the value
of the draft is asked for, so that a part nobody asks for cannot fail.
-/

namespace GatewayTelemetry

inductive Draft where
  | null
  | bool (b : Bool)
  | num (n : Option Number)
  | str (s : Option String)
  | arr (items : List Draft)
  | obj (fields : List (Option String × Draft))

namespace Draft

instance : Inhabited Draft := ⟨.null⟩

mutual

def value? : Nat → Draft → Option Json
  | _, .null => some .null
  | _, .bool b => some (.bool b)
  | _, .num n => n.map .num
  | _, .str s => s.map .str
  | 0, .arr _ | 0, .obj _ => none
  | room + 1, .arr items => (itemValues? room items).map .arr
  | room + 1, .obj fields => (fieldValues? room fields).map .obj

def itemValues? : Nat → List Draft → Option (List Json)
  | _, [] => some []
  | room, d :: rest => do return (← value? room d) :: (← itemValues? room rest)

def fieldValues? : Nat → List (Option String × Draft) → Option (List (String × Json))
  | _, [] => some []
  | room, (key, d) :: rest => do
    let key ← key
    return (key, ← value? room d) :: (← fieldValues? room rest)

end

def text? : Draft → Option String
  | .str s => s
  | _ => none

def float? : Draft → Option Float
  | .num (some (.int n _)) => some (Float.ofInt n)
  | .num (some (.real x _)) => some x
  | _ => none

/-- The fields of a record in the order of their names: the members of an object, none of them
given twice, or the items of an array, the last ones left out or not. -/
def fields? (names : List String) : Draft → Option (List (Option Draft))
  | .obj fields =>
    if fields.any fun f => f.1.isNone then none
    else names.mapM fun name =>
      match fields.filter fun f => f.1 = some name with
      | [] => some none
      | [f] => some (some f.2)
      | _ => none
  | .arr items =>
    if items.length ≤ names.length then
      some (items.map some ++ List.replicate (names.length - items.length) none)
    else none
  | _ => none

def optional? {α : Type} (read : Draft → Option α) : Option Draft → Option (Option α)
  | none | some .null => some none
  | some d => (read d).map some

end Draft

end GatewayTelemetry
