import GatewayTelemetry.Yaml.Scalar

/-! # Tokens of a document text

Indentation opens and closes block collections. A node that could be a mapping key is remembered
until its line ends; when the colon behind it is met, the mark of the key is put in front of it.
-/

namespace GatewayTelemetry.Yaml

/-- The octets of a tag. They need not spell a text. -/
abbrev Octets := List UInt8

def Octets.ofText (text : String) : Octets := text.toUTF8.data.toList

inductive Token where
  | version (major minor : Nat)
  | tagDirective (handle : List Char) (expansion : Octets)
  | documentStart
  | documentEnd
  | openBlockItems
  | openBlockPairs
  | closeBlock
  | openItems
  | closeItems
  | openPairs
  | closePairs
  | blockEntry
  | flowEntry
  | key
  | value
  | alias (name : List Char)
  | anchor (name : List Char)
  | tag (handle : List Char) (suffix : Octets)
  | scalar (style : Style) (text : List Char)
  deriving Repr, DecidableEq

/-- A node that may turn out to be a key. A required one stands where only a key fits. -/
structure Candidate where
  required : Bool
  position : Nat
  place : Cursor

/-- A scan under way. `outer` holds the indentations around the current one, `levels` the
candidates of the flow collections around the current one; tokens are kept newest first. -/
structure Scan where
  cursor : Cursor
  tokens : List Token
  indent : Int
  outer : List Int
  candidate : Option Candidate
  levels : List (Option Candidate)
  keyAllowed : Bool

namespace Scan

def ofText (text : String) : Scan := ⟨.ofText text, [], -1, [], none, [], true⟩

def inFlow (s : Scan) : Bool := !s.levels.isEmpty

def emit (s : Scan) (t : Token) : Scan := { s with tokens := t :: s.tokens }

def insertAt (s : Scan) (position : Nat) (t : Token) : Scan :=
  let behind := s.tokens.length - position
  { s with tokens := s.tokens.take behind ++ t :: s.tokens.drop behind }

def moveTo (s : Scan) (c : Cursor) : Scan := { s with cursor := c }

def allowKey (s : Scan) (b : Bool) : Scan := { s with keyAllowed := b }

def indentTo (s : Scan) (column position : Nat) (t : Token) : Scan :=
  if s.inFlow || (column : Int) ≤ s.indent then s
  else { s.insertAt position t with indent := column, outer := s.indent :: s.outer }

def closeTo (column indent : Int) (tokens : List Token) : List Int → Int × List Int × List Token
  | [] => (indent, [], tokens)
  | o :: outer =>
    if column < indent then closeTo column o (.closeBlock :: tokens) outer
    else (indent, o :: outer, tokens)

def dedentTo (s : Scan) (column : Int) : Scan :=
  if s.inFlow then s
  else
    let (indent, outer, tokens) := closeTo column s.indent s.tokens s.outer
    { s with indent := indent, outer := outer, tokens := tokens }

def dropCandidate (s : Scan) : Option Scan :=
  match s.candidate with
  | some k => if k.required then none else some { s with candidate := none }
  | none => some s

def noteCandidate (s : Scan) : Option Scan :=
  if s.keyAllowed then do
    let s ← s.dropCandidate
    let required := !s.inFlow && s.indent == (s.cursor.column : Int)
    return { s with candidate := some ⟨required, s.tokens.length, s.cursor⟩ }
  else some s

/-- A candidate holds on its own line and for no more than 1024 octets. -/
def Candidate.isFresh (k : Candidate) (c : Cursor) : Bool :=
  k.place.line == c.line && c.offset ≤ k.place.offset + 1024

/-- Past spacing, comments and breaks. Where a key may start, tabs are not taken for spacing. A
byte order mark is passed at the start of any line, but takes a column. -/
def skipBlanks : Nat → Scan → Option Scan
  | 0, _ => none
  | fuel + 1, s =>
    let tabs := s.inFlow || !s.keyAllowed
    let c := s.cursor
    let c := if c.column = 0 && c.next?.any isByteOrderMark then c.skip 1 else c
    let c := c.skipWhile fun x => x = ' ' || (tabs && x = '\t')
    let c := if c.nextIs '#' then c.skipLineRest else c
    if c.nextIsBreak then
      let s := s.moveTo c.skipBreak
      skipBlanks fuel (if s.inFlow then s else s.allowKey true)
    else some (s.moveTo c)

def readNumber (c : Cursor) : Option (Nat × Cursor) :=
  let ds := c.rest.takeWhile fun x => '0' ≤ x && x ≤ '9'
  if ds.isEmpty || 9 < ds.length then none
  else some (ds.foldl (fun n d => n * 10 + (d.toNat - 0x30)) 0, c.skip ds.length)

def readVersion (c : Cursor) : Option (Token × Cursor) := do
  let (major, c) ← readNumber (c.skipWhile isSpacing)
  if !c.nextIs '.' then none
  else
    let (minor, c) ← readNumber (c.skip 1)
    return (.version major minor, c)

def isUriChar (verbatim : Bool) (c : Char) : Bool :=
  isWordChar c || ";/?:@&=+$.%!~*'()".toList.contains c || (verbatim && ",[]".toList.contains c)

/-- How many octets have to follow a leading one. -/
def followers? (lead : UInt8) : Option Nat :=
  if lead < 0x80 then some 0
  else if lead < 0xC0 then none
  else if lead < 0xE0 then some 1
  else if lead < 0xF0 then some 2
  else if lead < 0xF8 then some 3
  else none

def readOctets : Nat → List Char → Option Octets
  | 0, [] => some []
  | due, '%' :: a :: b :: rest => do
    let octet := ((← hexDigit? a) * 16 + (← hexDigit? b)).toUInt8
    let due ←
      if due = 0 then followers? octet
      else if 0x80 ≤ octet && octet < 0xC0 then some (due - 1)
      else none
    return octet :: (← readOctets due rest)
  | 0, x :: rest => do if x = '%' then none else return x.toNat.toUInt8 :: (← readOctets 0 rest)
  | _ + 1, _ => none

def readUri (verbatim : Bool) (c : Cursor) : Option (Octets × Cursor) := do
  let raw := c.rest.takeWhile (isUriChar verbatim)
  return (← readOctets 0 raw, c.skip raw.length)

def Octets.kept (s : Octets) : Octets := s.takeWhile fun octet => octet ≠ 0

def readHandle (c : Cursor) : Option (List Char × Cursor) :=
  if !c.nextIs '!' then none
  else
    let name := (c.skip 1).rest.takeWhile isWordChar
    let c := c.skip (1 + name.length)
    if c.nextIs '!' then some ('!' :: name ++ ['!'], c.skip 1) else some ('!' :: name, c)

def readTagDirective (c : Cursor) : Option (Token × Cursor) := do
  let (handle, c) ← readHandle (c.skipWhile isSpacing)
  if (handle.length ≠ 1 && handle.getLast? ≠ some '!') || !c.nextIsSpacing then none
  else
    let (expansion, c) ← readUri true (c.skipWhile isSpacing)
    if expansion.isEmpty || !c.endsAt 0 then none
    else return (.tagDirective handle (Octets.kept expansion), c)

def readDirective (c : Cursor) : Option (Token × Cursor) := do
  let name := (c.skip 1).rest.takeWhile isWordChar
  let c := c.skip (1 + name.length)
  let (t, c) ←
    if !c.endsAt 0 then none
    else if name = ['Y', 'A', 'M', 'L'] then readVersion c
    else if name = ['T', 'A', 'G'] then readTagDirective c
    else none
  return (t, ← skipToNextLine c)

def readName (c : Cursor) : Option (List Char × Cursor) :=
  let name := (c.skip 1).rest.takeWhile isWordChar
  let c := c.skip (1 + name.length)
  if name.isEmpty || !(c.endsAt 0 || c.next?.any fun x => "?:,]\x7d%@\x60".toList.contains x) then none
  else some (name, c)

def readVerbatimTag (c : Cursor) : Option (Token × Cursor) := do
  let (uri, c) ← readUri true (c.skip 2)
  if uri.isEmpty || !c.nextIs '>' then none else return (.tag [] (Octets.kept uri), c.skip 1)

def readShorthandTag (c : Cursor) : Option (Token × Cursor) := do
  let (handle, c) ← readHandle c
  let (suffix, c) ← readUri false c
  if 1 < handle.length && handle.getLast? = some '!' then
    if suffix.isEmpty then none else return (.tag handle (Octets.kept suffix), c)
  else
    let suffix := Octets.kept (Octets.ofText (String.ofList (handle.drop 1)) ++ suffix)
    if suffix.isEmpty then return (.tag [] (.ofText "!"), c) else return (.tag ['!'] suffix, c)

def readTag (flow : Bool) (c : Cursor) : Option (Token × Cursor) := do
  let (t, c) ← if (c.skip 1).nextIs '<' then readVerbatimTag c else readShorthandTag c
  if c.endsAt 0 || (flow && c.nextIs ',') then return (t, c) else none

def mark (s : Scan) (t : Token) : Scan := (s.emit t).moveTo (s.cursor.skip 1)

def documentMark (s : Scan) (t : Token) : Option Scan := do
  let s ← (s.dedentTo (-1)).dropCandidate
  return ((s.emit t).moveTo (s.cursor.skip 3)).allowKey false

def directive (s : Scan) : Option Scan := do
  let s ← (s.dedentTo (-1)).dropCandidate
  let (t, c) ← readDirective s.cursor
  return ((s.emit t).moveTo c).allowKey false

def openFlow (s : Scan) (t : Token) : Option Scan := do
  let s ← s.noteCandidate
  return { s.mark t with levels := s.candidate :: s.levels, candidate := none, keyAllowed := true }

def closeFlow (s : Scan) (t : Token) : Option Scan := do
  let s := (← s.dropCandidate).mark t
  match s.levels with
  | [] => return s.allowKey false
  | k :: levels => return { s with levels := levels, candidate := k, keyAllowed := false }

def flowEntry (s : Scan) : Option Scan := do
  return ((← s.dropCandidate).mark .flowEntry).allowKey true

def openHere (s : Scan) (t : Token) : Option Scan :=
  if s.inFlow then some s
  else if s.keyAllowed then some (s.indentTo s.cursor.column s.tokens.length t)
  else none

def blockEntry (s : Scan) : Option Scan := do
  let s ← (← s.openHere .openBlockItems).dropCandidate
  return (s.mark .blockEntry).allowKey true

def explicitKey (s : Scan) : Option Scan := do
  let s ← (← s.openHere .openBlockPairs).dropCandidate
  return (s.mark .key).allowKey !s.inFlow

def value (s : Scan) : Option Scan := do
  let fresh := s.candidate.filter fun k => Candidate.isFresh k s.cursor
  match fresh with
  | some k =>
    let s := (s.insertAt k.position .key).indentTo k.place.column k.position .openBlockPairs
    return { s.mark .value with candidate := none, keyAllowed := false }
  | none =>
    if s.candidate.any fun k => k.required then none
    else
      let s ← s.openHere .openBlockPairs
      return (s.mark .value).allowKey !s.inFlow

def keyPart (s : Scan) (read : Cursor → Option (Token × Cursor)) : Option Scan := do
  let s ← s.noteCandidate
  let (t, c) ← read s.cursor
  return ((s.emit t).moveTo c).allowKey false

def quotedScalar (s : Scan) (quote : Char) : Option Scan :=
  s.keyPart fun c =>
    (readQuoted quote (c.rest.length + 1) [] (c.skip 1)).map fun r => (.scalar .quoted r.1, r.2)

def plainScalar (s : Scan) : Option Scan := do
  let s ← s.noteCandidate
  let (text, broken, c) ←
    readPlain s.inFlow (s.indent + 1).toNat (s.cursor.rest.length + 1) [] .none s.cursor
  return ((s.emit (.scalar .plain text)).moveTo c).allowKey broken

def blockScalar (s : Scan) (style : Style) : Option Scan := do
  let s ← s.dropCandidate
  let (text, c) ← readBlock (style = .folded) s.indent (s.cursor.skip 1)
  return ((s.emit (.scalar style text)).moveTo c).allowKey true

def startsPlain (s : Scan) (x : Char) : Bool :=
  let indicators := "-?:,[]\x7b\x7d#&*!|>'\"%@\x60".toList
  !(isSpacing x || indicators.contains x) ||
    (x = '-' && !(s.cursor.rest[1]?.any isSpacing)) ||
    (!s.inFlow && (x = '?' || x = ':') && !s.cursor.endsAt 1)

def step (s : Scan) (x : Char) : Option Scan :=
  let atMark := s.inFlow || s.cursor.endsAt 1
  if s.cursor.column = 0 && x = '%' then s.directive
  else if s.cursor.marks '-' then s.documentMark .documentStart
  else if s.cursor.marks '.' then s.documentMark .documentEnd
  else if x = '[' then s.openFlow .openItems
  else if x = '\x7b' then s.openFlow .openPairs
  else if x = ']' then s.closeFlow .closeItems
  else if x = '\x7d' then s.closeFlow .closePairs
  else if x = ',' then s.flowEntry
  else if x = '-' && s.cursor.endsAt 1 then s.blockEntry
  else if x = '?' && atMark then s.explicitKey
  else if x = ':' && atMark then s.value
  else if x = '*' then s.keyPart fun c => (readName c).map fun r => (.alias r.1, r.2)
  else if x = '&' then s.keyPart fun c => (readName c).map fun r => (.anchor r.1, r.2)
  else if x = '!' then s.keyPart (readTag s.inFlow)
  else if x = '|' && !s.inFlow then s.blockScalar .literal
  else if x = '>' && !s.inFlow then s.blockScalar .folded
  else if x = '\'' || x = '"' then s.quotedScalar x
  else if s.startsPlain x then s.plainScalar
  else none

def run : Nat → Scan → Option (List Token)
  | 0, _ => none
  | fuel + 1, s => do
    let s ← s.skipBlanks (s.cursor.rest.length + 1)
    let s := s.dedentTo s.cursor.column
    match s.cursor.rest with
    | [] => return (← (s.dedentTo (-1)).dropCandidate).tokens.reverse
    | x :: _ => run fuel (← s.step x)

end Scan

def tokens? (text : String) : Option (List Token) :=
  if text.toList.all isAllowed then (Scan.ofText text).run (text.length + 1) else none

end GatewayTelemetry.Yaml
