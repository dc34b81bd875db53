/-! # Places in a document text

A cursor is the text still to be read together with the place where it starts. The place is
counted in octets from the start of the text and in characters from the start of the line. Lines
end at any of five break characters; a carriage return directly before a line feed ends the line
with it.
-/

namespace GatewayTelemetry.Yaml

def isAllowed (c : Char) : Bool :=
  let n := c.toNat
  n == 9 || n == 10 || n == 13 || (0x20 ≤ n && n ≤ 0x7E) || n == 0x85 ||
    (0xA0 ≤ n && n ≤ 0xFFFD) || 0x10000 ≤ n

def isBreak (c : Char) : Bool :=
  c = '\n' || c = '\r' || c = '\u0085' || c = '\u2028' || c = '\u2029'

def isByteOrderMark (c : Char) : Bool := c = '\ufeff'

def isSpacing (c : Char) : Bool := c = ' ' || c = '\t'

def isWordChar (c : Char) : Bool :=
  ('0' ≤ c && c ≤ '9') || ('a' ≤ c && c ≤ 'z') || ('A' ≤ c && c ≤ 'Z') || c = '_' || c = '-'

def isFlowMark (c : Char) : Bool :=
  c = ',' || c = '[' || c = ']' || c = '\x7b' || c = '\x7d'

structure Cursor where
  rest : List Char
  offset : Nat
  line : Nat
  column : Nat

namespace Cursor

def ofText (text : String) : Cursor := ⟨text.toList, 0, 0, 0⟩

def next? (c : Cursor) : Option Char := c.rest.head?

def endsAt (c : Cursor) (n : Nat) : Bool :=
  match c.rest[n]? with
  | none => true
  | some x => isSpacing x || isBreak x

def nextIs (c : Cursor) (x : Char) : Bool := c.next? = some x

def nextIsBreak (c : Cursor) : Bool := c.next?.any isBreak

def nextIsSpacing (c : Cursor) : Bool := c.next?.any isSpacing

def skip (c : Cursor) (n : Nat) : Cursor :=
  ⟨c.rest.drop n, (c.rest.take n).foldl (fun k x => k + x.utf8Size) c.offset, c.line, c.column + n⟩

def skipWhile (c : Cursor) (p : Char → Bool) : Cursor := c.skip (c.rest.takeWhile p).length

def skipLineRest (c : Cursor) : Cursor := c.skipWhile fun x => !isBreak x

def skipBreak (c : Cursor) : Cursor :=
  match c.rest with
  | '\r' :: '\n' :: rest => ⟨rest, c.offset + 2, c.line + 1, 0⟩
  | x :: rest => ⟨rest, c.offset + x.utf8Size, c.line + 1, 0⟩
  | [] => c

/-- The character that a break stands for; only the two separators stand for themselves. -/
def breakText (c : Cursor) : List Char :=
  match c.next? with
  | some '\u2028' => ['\u2028']
  | some '\u2029' => ['\u2029']
  | _ => ['\n']

def marks (c : Cursor) (x : Char) : Bool :=
  c.column == 0 && [x, x, x].isPrefixOf c.rest && c.endsAt 3

def atDocumentMark (c : Cursor) : Bool := c.marks '-' || c.marks '.'

end Cursor

end GatewayTelemetry.Yaml
