import GatewayTelemetry.Decimal.Read
import GatewayTelemetry.Json.Draft

/-! # Reading JSON text

The reader makes a draft of exactly one value with blanks around it. Integers that fit in a 64-bit
word stay integers; every other number is the double of its leading digits, scaled by a power of
ten. Members keep the order of the text. Containers under way are kept on a stack.
-/

namespace GatewayTelemetry

namespace Draft

def isSpace (c : Char) : Bool := c = ' ' || c = '\n' || c = '\r' || c = '\t'

def skipSpace (cs : List Char) : List Char := cs.dropWhile isSpace

def powerOfTen (n : Nat) : Float := Float.ofScientific 1 false n

def scaleFloat? (x : Float) (e : Int) : Option Float :=
  if x == 0 then some x
  else if 0 ≤ e then
    if e ≤ 308 then
      let y := x * powerOfTen e.toNat
      if y.isFinite then some y else none
    else none
  else if -308 ≤ e then some (x / powerOfTen (-e).toNat)
  else if -616 ≤ e then some (x / powerOfTen 308 / powerOfTen (-e - 308).toNat)
  else some 0

/-- The digits whose value still fits in a 64-bit word, and the number of digits left over. -/
def leadingWord : Nat → List Char → Nat × Nat
  | n, [] => (n, 0)
  | n, c :: rest =>
    let next := n * 10 + Decimal.digitValue c
    if next < UInt64.size then leadingWord next rest else (n, rest.length + 1)

def negateIf (negative : Bool) (x : Float) : Float := if negative then -x else x

def realNumber? (negative : Bool) (mantissa : Nat) (e : Int) : Option Number := do
  let x ← scaleFloat? (Float.ofNat mantissa) e
  Number.ofFloat? (negateIf negative x)

/-- A number without point and exponent. A negative zero is a double. -/
def wholeNumber? (negative : Bool) (whole : List Char) : Option Number :=
  let (n, left) := leadingWord 0 whole
  if left ≠ 0 then realNumber? negative n left
  else if !negative then Number.ofInt? n
  else if n = 0 || 9223372036854775808 < n then Number.ofFloat? (-(Float.ofNat n))
  else Number.ofInt? (-n)

/-- A number with a point or an exponent. Digits behind the point still count while they fit in the
word, also if whole digits had to be left out in front of them. -/
def pointNumber? (negative : Bool) (whole fraction : List Char) (e : Int) : Option Number :=
  let (n, left) := leadingWord 0 whole
  let (n, spare) := leadingWord n fraction
  if n = 0 then Number.ofFloat? (negateIf negative 0)
  else realNumber? negative n (e + left - (fraction.length - spare : Nat))

def readExponent? (cs : List Char) : Option (Int × List Char) :=
  let (negative, rest) := Decimal.splitSign cs
  let ds := rest.takeWhile Decimal.isDigit
  if ds.isEmpty then none
  else
    let n : Int := Decimal.natOfDigits ds
    some (if negative then -n else n, rest.dropWhile Decimal.isDigit)

def readNumber (cs : List Char) : Option (Draft × List Char) := do
  let (negative, cs) := match cs with
    | '-' :: rest => (true, rest)
    | _ => (false, cs)
  let whole := cs.takeWhile Decimal.isDigit
  let rest := cs.dropWhile Decimal.isDigit
  if whole.isEmpty || (whole.head? = some '0' && whole.length ≠ 1) then none
  else
    let (fraction, rest) ← match rest with
      | '.' :: r =>
        let ds := r.takeWhile Decimal.isDigit
        if ds.isEmpty then none else some (some ds, r.dropWhile Decimal.isDigit)
      | r => some (none, r)
    let (e, rest) ← match rest with
      | c :: r =>
        if c = 'e' || c = 'E' then (readExponent? r).map fun p => (some p.1, p.2)
        else some (none, rest)
      | [] => some (none, [])
    let number := match fraction, e with
      | none, none => wholeNumber? negative whole
      | ds, e => pointNumber? negative whole (ds.getD []) (e.getD 0)
    return (.num number, rest)

def hexValue? (c : Char) : Option Nat :=
  if '0' ≤ c && c ≤ '9' then some (c.toNat - 0x30)
  else if 'a' ≤ c && c ≤ 'f' then some (c.toNat - 0x57)
  else if 'A' ≤ c && c ≤ 'F' then some (c.toNat - 0x37)
  else none

def readUnit : List Char → Option (Nat × List Char)
  | a :: b :: c :: d :: rest => do
    let a ← hexValue? a
    let b ← hexValue? b
    let c ← hexValue? c
    let d ← hexValue? d
    return (((a * 16 + b) * 16 + c) * 16 + d, rest)
  | _ => none

def isHighSurrogate (u : Nat) : Bool := 0xD800 ≤ u && u < 0xDC00

def isLowSurrogate (u : Nat) : Bool := 0xDC00 ≤ u && u < 0xE000

def pairValue (high low : Nat) : Nat := 0x10000 + (high - 0xD800) * 0x400 + (low - 0xDC00)

/-- The text of a row of code points in which a high and a low surrogate make up a pair. -/
def spell? : List Char → List Nat → Option String
  | done, [] => some (String.ofList done.reverse)
  | done, [u] =>
    if isHighSurrogate u || isLowSurrogate u then none
    else some (String.ofList (Char.ofNat u :: done).reverse)
  | done, u :: v :: rest =>
    if isLowSurrogate u then none
    else if isHighSurrogate u then
      if isLowSurrogate v then spell? (Char.ofNat (pairValue u v) :: done) rest else none
    else spell? (Char.ofNat u :: done) (v :: rest)

def readEscape : List Char → Option (Nat × List Char)
  | '"' :: rest => some (0x22, rest)
  | '\\' :: rest => some (0x5C, rest)
  | '/' :: rest => some (0x2F, rest)
  | 'b' :: rest => some (0x08, rest)
  | 'f' :: rest => some (0x0C, rest)
  | 'n' :: rest => some (0x0A, rest)
  | 'r' :: rest => some (0x0D, rest)
  | 't' :: rest => some (0x09, rest)
  | 'u' :: rest => readUnit rest
  | _ => none

/-- The rest of a text behind its opening quote; `fuel` bounds the characters looked at. -/
def readChars : Nat → List Nat → List Char → Option (Option String × List Char)
  | 0, _, _ => none
  | _ + 1, _, [] => none
  | fuel + 1, done, c :: rest =>
    if c = '"' then some (spell? [] done.reverse, rest)
    else if c = '\\' then
      match readEscape rest with
      | some (u, more) => readChars fuel (u :: done) more
      | none => none
    else if c.toNat < 0x20 then none
    else readChars fuel (c.toNat :: done) rest

def readWord (word : String) (value : Draft) (cs : List Char) : Option (Draft × List Char) :=
  if word.toList.isPrefixOf cs then some (value, cs.drop word.length) else none

def readLeaf (fuel : Nat) (cs : List Char) : Option (Draft × List Char) :=
  match cs with
  | '"' :: rest => (readChars fuel [] rest).map fun p => (.str p.1, p.2)
  | 't' :: _ => readWord "true" (.bool true) cs
  | 'f' :: _ => readWord "false" (.bool false) cs
  | 'n' :: _ => readWord "null" .null cs
  | _ => readNumber cs

def readKey (fuel : Nat) (cs : List Char) : Option (Option String × List Char) := do
  let (key, rest) ← match skipSpace cs with
    | '"' :: more => readChars fuel [] more
    | _ => none
  match skipSpace rest with
  | ':' :: more => return (key, more)
  | _ => none

/-- A container whose end is still to come, with what it holds so far, newest first. -/
inductive Pending where
  | arr (done : List Draft)
  | obj (done : List (Option String × Draft)) (key : Option String)

/-- Reads to the end of the outermost container. `last` is the value just read; without one a
value has to follow. Every step but the last one takes a character, so `fuel` also bounds the
characters that are left. -/
def readOn : Nat → List Pending → Option Draft → List Char → Option (Draft × List Char)
  | 0, _, _, _ => none
  | fuel + 1, stack, none, cs =>
    match skipSpace cs with
    | '[' :: rest =>
      match skipSpace rest with
      | ']' :: more => readOn fuel stack (some (.arr [])) more
      | _ => readOn fuel (.arr [] :: stack) none rest
    | '\x7b' :: rest =>
      match skipSpace rest with
      | '\x7d' :: more => readOn fuel stack (some (.obj [])) more
      | _ =>
        match readKey fuel rest with
        | some (key, rest) => readOn fuel (.obj [] key :: stack) none rest
        | none => none
    | cs =>
      match readLeaf fuel cs with
      | some (d, rest) => readOn fuel stack (some d) rest
      | none => none
  | _ + 1, [], some d, cs => some (d, cs)
  | fuel + 1, .arr done :: stack, some d, cs =>
    match skipSpace cs with
    | ',' :: rest => readOn fuel (.arr (d :: done) :: stack) none rest
    | ']' :: rest => readOn fuel stack (some (.arr (d :: done).reverse)) rest
    | _ => none
  | fuel + 1, .obj done key :: stack, some d, cs =>
    match skipSpace cs with
    | ',' :: rest =>
      match readKey fuel rest with
      | some (next, rest) => readOn fuel (.obj ((key, d) :: done) next :: stack) none rest
      | none => none
    | '\x7d' :: rest => readOn fuel stack (some (.obj ((key, d) :: done).reverse)) rest
    | _ => none

def read? (text : String) : Option Draft :=
  let cs := text.toList
  match readOn (cs.length + 2) [] none cs with
  | some (d, rest) => if (skipSpace rest).isEmpty then some d else none
  | none => none

end Draft

def Json.nestingLimit : Nat := 127

def Json.read? (text : String) : Option Json := (Draft.read? text).bind (Draft.value? nestingLimit)

end GatewayTelemetry
