import GatewayTelemetry.Json.Draft

/-! # Shapes of drafts

A shape says which drafts may stand at a place of a document. A record passes over the members it
does not name, whatever they hold, and a member given twice has to fit both times.
-/

namespace GatewayTelemetry

inductive Shape where
  | value
  | text
  | textWith (holds : String → Bool)
  | flag
  | integer
  | nullable (shape : Shape)
  | list (item : Shape)
  | table (entry : Shape)
  | record (members : List (String × Shape))

namespace Shape

mutual

def fits : Shape → Nat → Draft → Bool
  | value, room, d => (d.value? room).isSome
  | text, _, .str s => s.isSome
  | textWith holds, _, .str s => s.any holds
  | flag, _, .bool _ => true
  | integer, _, .num (some (.int n _)) => n < 9223372036854775808
  | nullable _, _, .null => true
  | nullable shape, room, d => shape.fits room d
  | list item, room + 1, .arr items => items.all fun d => item.fits room d
  | table entry, room + 1, .obj fields =>
    fields.all fun f => f.1.isSome && entry.fits room f.2
  | record members, room + 1, .obj fields =>
    fields.all fun f => f.1.any fun key => memberFits members room key f.2
  | _, _, _ => false

def memberFits : List (String × Shape) → Nat → String → Draft → Bool
  | [], _, _, _ => true
  | (name, shape) :: rest, room, key, d =>
    if name = key then shape.fits room d else memberFits rest room key d

end

end Shape

end GatewayTelemetry
