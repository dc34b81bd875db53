import GatewayTelemetry.Yaml.Cursor

/-! # Scalar texts

A scalar is written plain, between quotes, or as a block. In plain and quoted scalars a single
break folds into a space and further breaks stay; a block either keeps its breaks or folds them.
-/

namespace GatewayTelemetry.Yaml

inductive Style where
  | plain
  | quoted
  | literal
  | folded
  deriving Repr, DecidableEq

structure Gap where
  spaces : List Char
  first : List Char
  others : List Char
  broken : Bool

namespace Gap

def none : Gap := ⟨[], [], [], false⟩

def text (g : Gap) : List Char :=
  if !g.broken then g.spaces
  else if g.first = ['\n'] then (if g.others.isEmpty then [' '] else g.others)
  else g.first ++ g.others

def read (indent : Nat) : Nat → Gap → Cursor → Option (Gap × Cursor)
  | 0, _, _ => Option.none
  | fuel + 1, g, c =>
    if c.nextIsBreak then
      if g.broken then read indent fuel { g with others := g.others ++ c.breakText } c.skipBreak
      else read indent fuel ⟨[], c.breakText, g.others, true⟩ c.skipBreak
    else if c.nextIsSpacing then
      if g.broken then
        if c.column < indent && c.nextIs '\t' then Option.none
        else read indent fuel g (c.skip 1)
      else read indent fuel { g with spaces := g.spaces ++ c.next?.toList } (c.skip 1)
    else some (g, c)

end Gap

def readPlainRun (flow : Bool) : Nat → List Char → Cursor → Option (List Char × Cursor)
  | 0, _, _ => none
  | fuel + 1, done, c =>
    match c.rest with
    | [] => some (done.reverse, c)
    | x :: more =>
      if isSpacing x || isBreak x then some (done.reverse, c)
      else if flow && x = ':' && more.head?.any fun y => isFlowMark y || y = '?' then none
      else if (x = ':' && c.endsAt 1) || (flow && isFlowMark x) then some (done.reverse, c)
      else readPlainRun flow fuel (x :: done) (c.skip 1)

def readPlain (flow : Bool) (indent : Nat) :
    Nat → List Char → Gap → Cursor → Option (List Char × Bool × Cursor)
  | 0, _, _, _ => none
  | fuel + 1, done, g, c =>
    if c.atDocumentMark || c.nextIs '#' then some (done, g.broken, c)
    else do
      let (run, c) ← readPlainRun flow (c.rest.length + 1) [] c
      let (done, g) := if run.isEmpty then (done, g) else (done ++ g.text ++ run, Gap.none)
      if c.nextIsSpacing || c.nextIsBreak then
        let (g, c) ← g.read indent (c.rest.length + 1) c
        if !flow && c.column < indent then some (done, g.broken, c)
        else readPlain flow indent fuel done g c
      else some (done, g.broken, c)

def hexDigit? (c : Char) : Option Nat :=
  if '0' ≤ c && c ≤ '9' then some (c.toNat - 0x30)
  else if 'a' ≤ c && c ≤ 'f' then some (c.toNat - 0x57)
  else if 'A' ≤ c && c ≤ 'F' then some (c.toNat - 0x37)
  else none

def readCode (width : Nat) (c : Cursor) : Option (Char × Cursor) := do
  let digits ← (c.rest.take width).mapM hexDigit?
  let n := digits.foldl (fun n d => n * 16 + d) 0
  if digits.length = width && n.isValidChar then some (Char.ofNat n, c.skip width) else none

def readEscape (c : Cursor) : Option (Char × Cursor) :=
  let named (x : Char) := some (x, c.skip 1)
  match c.next? with
  | some '0' => named '\x00'
  | some 'a' => named '\x07'
  | some 'b' => named '\x08'
  | some 't' => named '\t'
  | some '\t' => named '\t'
  | some 'n' => named '\n'
  | some 'v' => named '\x0b'
  | some 'f' => named '\x0c'
  | some 'r' => named '\r'
  | some 'e' => named '\x1b'
  | some ' ' => named ' '
  | some '"' => named '"'
  | some '/' => named '/'
  | some '\\' => named '\\'
  | some 'N' => named '\u0085'
  | some '_' => named '\u00a0'
  | some 'L' => named '\u2028'
  | some 'P' => named '\u2029'
  | some 'x' => readCode 2 (c.skip 1)
  | some 'u' => readCode 4 (c.skip 1)
  | some 'U' => readCode 8 (c.skip 1)
  | _ => none

/-- Content up to spacing, a break or the closing quote; the flag tells of an escaped break. -/
def readQuotedRun (quote : Char) :
    Nat → List Char → Cursor → Option (List Char × Bool × Cursor)
  | 0, _, _ => none
  | fuel + 1, done, c =>
    match c.rest with
    | [] => some (done.reverse, false, c)
    | x :: more =>
      if isSpacing x || isBreak x then some (done.reverse, false, c)
      else if quote = '\'' && x = quote && more.head? = some quote then
        readQuotedRun quote fuel (quote :: done) (c.skip 2)
      else if x = quote then some (done.reverse, false, c)
      else if quote = '"' && x = '\\' then
        if more.head?.any isBreak then some (done.reverse, true, (c.skip 1).skipBreak)
        else
          match readEscape (c.skip 1) with
          | some (y, c) => readQuotedRun quote fuel (y :: done) c
          | none => none
      else readQuotedRun quote fuel (x :: done) (c.skip 1)

def readQuoted (quote : Char) : Nat → List Char → Cursor → Option (List Char × Cursor)
  | 0, _, _ => none
  | fuel + 1, done, c =>
    if c.atDocumentMark || c.rest.isEmpty then none
    else do
      let (run, escaped, c) ← readQuotedRun quote (c.rest.length + 1) [] c
      let done := done ++ run
      if c.nextIs quote then some (done, c.skip 1)
      else
        let (g, c) ← Gap.read 0 (c.rest.length + 1) { Gap.none with broken := escaped } c
        readQuoted quote fuel (done ++ g.text) c

inductive Chomp where
  | strip
  | clip
  | keep
  deriving Repr, DecidableEq

def chompOf? (c : Char) : Option Chomp :=
  if c = '+' then some .keep else if c = '-' then some .strip else none

def readBlockHeader (c : Cursor) : Option (Chomp × Option Nat × Cursor) :=
  let digit (c : Cursor) : Option (Option Nat × Cursor) :=
    match c.next? with
    | some x =>
      if x = '0' then none
      else if '1' ≤ x && x ≤ '9' then some (some (x.toNat - 0x30), c.skip 1)
      else some (none, c)
    | none => some (none, c)
  match c.next?.bind chompOf? with
  | some chomp => (digit (c.skip 1)).map fun d => (chomp, d.1, d.2)
  | none => do
    let (width, c) ← digit c
    match width, c.next?.bind chompOf? with
    | some _, some chomp => return (chomp, width, c.skip 1)
    | _, _ => return (.clip, width, c)

def skipToNextLine (c : Cursor) : Option Cursor :=
  let c := c.skipWhile isSpacing
  let c := if c.nextIs '#' then c.skipLineRest else c
  if c.rest.isEmpty then some c
  else if c.nextIsBreak then some c.skipBreak
  else none

def readBlankLines (indent : Option Nat) :
    Nat → Nat → List Char → Cursor → Option (Nat × List Char × Cursor)
  | 0, _, _, _ => none
  | fuel + 1, deepest, breaks, c =>
    let room := (indent.map fun n => n - c.column).getD c.rest.length
    let c := c.skip ((c.rest.take room).takeWhile fun x => x = ' ').length
    let deepest := max deepest c.column
    if c.nextIs '\t' && indent.all fun n => c.column < n then none
    else if c.nextIsBreak then readBlankLines indent fuel deepest (breaks ++ c.breakText) c.skipBreak
    else some (deepest, breaks, c)

structure Block where
  text : List Char
  last : List Char
  blank : List Char
  spaced : Bool

def Block.joined (folded : Bool) (b : Block) (spaced : Bool) : List Char :=
  if folded && b.last = ['\n'] && !b.spaced && !spaced then
    b.text ++ (if b.blank.isEmpty then [' '] else b.blank)
  else b.text ++ b.last ++ b.blank

def readBlockLines (folded : Bool) (indent : Nat) : Nat → Block → Cursor → Option (Block × Cursor)
  | 0, _, _ => none
  | fuel + 1, b, c =>
    if c.column ≠ indent || c.rest.isEmpty then some (b, c)
    else
      let spaced := c.nextIsSpacing
      let line := c.rest.takeWhile fun x => !isBreak x
      let text := b.joined folded spaced ++ line
      let c := c.skip line.length
      let (last, c) := if c.rest.isEmpty then ([], c) else (c.breakText, c.skipBreak)
      match readBlankLines (some indent) (c.rest.length + 1) 0 [] c with
      | some (_, blank, c) => readBlockLines folded indent fuel ⟨text, last, blank, spaced⟩ c
      | none => none

def readBlock (folded : Bool) (outer : Int) (c : Cursor) : Option (List Char × Cursor) := do
  let (chomp, width, c) ← readBlockHeader c
  let c ← skipToNextLine c
  let known := width.map fun n => outer.toNat + n
  let (deepest, blank, c) ← readBlankLines known (c.rest.length + 1) 0 [] c
  let indent := known.getD (max deepest (max (outer + 1).toNat 1))
  let (b, c) ← readBlockLines folded indent (c.rest.length + 1) ⟨[], [], blank, false⟩ c
  let text := match chomp with
    | .strip => b.text
    | .clip => b.text ++ b.last
    | .keep => b.text ++ b.last ++ b.blank
  return (text, c)

end GatewayTelemetry.Yaml
