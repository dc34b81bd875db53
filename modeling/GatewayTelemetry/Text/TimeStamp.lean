import GatewayTelemetry.Decimal.Read
import GatewayTelemetry.Text.Blank

/-! # Time stamps

A time stamp is a date, a time of day and an offset from universal time, as in
`2024-05-01T10:20:30.5Z`. Blanks may stand before every number, before the marks between numbers
and at both ends, and a number may have fewer digits than usual.
-/

namespace GatewayTelemetry.TimeStamp

def readNumber (width : Nat) (cs : List Char) : Option (Nat × List Char) :=
  let ds := (cs.take width).takeWhile Decimal.isDigit
  if ds.isEmpty then none else some (Decimal.natOfDigits ds, cs.drop ds.length)

def readPair (cs : List Char) : Option (Nat × List Char) := readNumber 2 (Text.trimStart cs)

/-- A year of up to four digits, or of any number of digits behind a sign. -/
def readYear (cs : List Char) : Option (Int × List Char) :=
  match Text.trimStart cs with
  | '-' :: rest => (readNumber rest.length rest).map fun p => (-(p.1 : Int), p.2)
  | '+' :: rest => (readNumber rest.length rest).map fun p => ((p.1 : Int), p.2)
  | cs => (readNumber 4 cs).map fun p => ((p.1 : Int), p.2)

def readMark (mark : Char) (cs : List Char) : Option (List Char) :=
  match Text.trimStart cs with
  | c :: rest => if c = mark then some rest else none
  | [] => none

def skipFraction (cs : List Char) : Option (List Char) :=
  match cs with
  | '.' :: rest =>
    if rest.head?.any Decimal.isDigit then some (rest.dropWhile Decimal.isDigit) else none
  | cs => some cs

def readSpan (cs : List Char) : Option (Int × List Char) := do
  let twoDigits (cs : List Char) : Option (Nat × List Char) :=
    if (cs.take 2).length = 2 && (cs.take 2).all Decimal.isDigit then readNumber 2 cs else none
  let (hours, cs) ← twoDigits cs
  let (minutes, cs) ← twoDigits (cs.dropWhile fun c => c = ':' || Text.isBlank c)
  if minutes < 60 then return (hours * 60 + minutes, cs) else none

/-- The offset from universal time, in minutes. The minus sign has two spellings. -/
def readOffset (cs : List Char) : Option (Int × List Char) :=
  match cs with
  | 'Z' :: rest | 'z' :: rest => some (0, rest)
  | '+' :: rest => readSpan rest
  | '-' :: rest | '\u2212' :: rest => (readSpan rest).map fun p => (-p.1, p.2)
  | cs =>
    if (cs.take 3).map Char.toUpper = ['U', 'T', 'C'] then some (0, cs.drop 3) else none

structure Date where
  year : Int
  month : Nat
  day : Nat

namespace Date

def isLeap (year : Int) : Bool := year % 4 = 0 && (year % 100 ≠ 0 || year % 400 = 0)

def monthLength (year : Int) (month : Nat) : Nat :=
  if month = 2 then (if isLeap year then 29 else 28)
  else if month = 4 || month = 6 || month = 9 || month = 11 then 30
  else 31

def firstYear : Int := -262143

def lastYear : Int := 262142

def isValid (d : Date) : Bool :=
  firstYear ≤ d.year && d.year ≤ lastYear && 1 ≤ d.month && d.month ≤ 12 && 1 ≤ d.day &&
    d.day ≤ monthLength d.year d.month

def isFirst (d : Date) : Bool := d.year = firstYear && d.month = 1 && d.day = 1

def isLast (d : Date) : Bool := d.year = lastYear && d.month = 12 && d.day = 31

end Date

/-- A time of day. The second after the last one of a minute may be named. -/
structure Time where
  hour : Nat
  minute : Nat
  second : Nat

def Time.isValid (t : Time) : Bool := t.hour < 24 && t.minute < 60 && t.second ≤ 60

structure Fields where
  date : Date
  time : Time
  /-- Minutes ahead of universal time. -/
  offset : Int

def Fields.isValid (f : Fields) : Bool :=
  let minutes : Int := f.time.hour * 60 + f.time.minute - f.offset
  f.date.isValid && f.time.isValid && -1440 < f.offset && f.offset < 1440 &&
    !(f.date.isFirst && minutes < 0) && !(f.date.isLast && 1440 ≤ minutes)

def readDate (cs : List Char) : Option (Date × List Char) := do
  let (year, cs) ← readYear cs
  let (month, cs) ← readPair (← readMark '-' cs)
  let (day, cs) ← readPair (← readMark '-' cs)
  return (⟨year, month, day⟩, cs)

def readTime (cs : List Char) : Option (Time × List Char) := do
  let (hour, cs) ← readPair cs
  let (minute, cs) ← readPair (← readMark ':' cs)
  let (second, cs) ← readPair (← readMark ':' cs)
  return (⟨hour, minute, second⟩, ← skipFraction cs)

def read (cs : List Char) : Option Fields := do
  let (date, cs) ← readDate cs
  let cs ← match cs with
    | 'T' :: rest | 't' :: rest | ' ' :: rest => some rest
    | _ => none
  let (time, cs) ← readTime cs
  let (offset, cs) ← readOffset (Text.trimStart cs)
  if (Text.trimStart cs).isEmpty then return ⟨date, time, offset⟩ else none

def isInstant (text : String) : Bool := (read text.toList).any Fields.isValid

end GatewayTelemetry.TimeStamp
