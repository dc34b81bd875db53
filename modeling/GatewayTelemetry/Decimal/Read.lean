import GatewayTelemetry.Decimal.Shortest

/-! # Decimal literals read as doubles

A literal is an optional sign and either digits with at most one point and an optional exponent,
or the name of an infinity or of the undefined value in any case. Its double is the one nearest
to the exact value; exponents far outside the range are settled without computing the power.
-/

namespace GatewayTelemetry.Decimal

def isDigit (c : Char) : Bool := '0' ≤ c && c ≤ '9'

def digitValue (c : Char) : Nat := c.toNat - 0x30

def natOfDigits (ds : List Char) : Nat := ds.foldl (fun n c => n * 10 + digitValue c) 0

structure Literal where
  mantissa : Nat
  exponent : Int
  deriving Repr, DecidableEq

def inUnits (num den : Nat) (e : Int) : Nat × Nat :=
  (num * Nat.pow 2 (-e).toNat, den * Nat.pow 2 e.toNat)

/-- The exponent of the last bit of a double as large as `num / den`. -/
def lastBit (num den : Nat) : Int :=
  let e : Int := (Nat.log2 num : Int) - Nat.log2 den - 52
  let (n, d) := inUnits num den e
  max (if n / d < hidden then e - 1 else e) (-1074)

/-- The bits of the double nearest to `num / den`; a tie goes to the even mantissa. A mantissa
that is rounded up past its binade carries into the exponent. -/
def nearestBits (num den : Nat) : Nat :=
  let e := lastBit num den
  let (n, d) := inUnits num den e
  let rest := 2 * (n % d)
  let up := if d < rest || (rest == d && n / d % 2 == 1) then 1 else 0
  min ((e + 1074).toNat * hidden + n / d + up) (2047 * hidden)

def Literal.toFloat (l : Literal) : Float :=
  let digits : Int := (Nat.log2 l.mantissa) * 30103 / 100000
  if l.mantissa = 0 then 0
  else if 310 < digits + l.exponent then 1 / 0
  else if digits + l.exponent < -330 then 0
  else
    let num := l.mantissa * Nat.pow 10 l.exponent.toNat
    Float.ofBits (nearestBits num (Nat.pow 10 (-l.exponent).toNat)).toUInt64

def dropPlus : List Char → List Char
  | '+' :: rest => rest
  | cs => cs

def splitSign : List Char → Bool × List Char
  | '-' :: rest => (true, rest)
  | '+' :: rest => (false, rest)
  | cs => (false, cs)

def readExponent : List Char → Option Int
  | [] => some 0
  | c :: rest =>
    if c = 'e' || c = 'E' then
      let (negative, ds) := splitSign rest
      if ds.isEmpty || !ds.all isDigit then none
      else
        let n : Int := natOfDigits ds
        some (if negative then -n else n)
    else none

def readMagnitude (cs : List Char) : Option Literal := do
  let whole := cs.takeWhile isDigit
  let rest := cs.dropWhile isDigit
  let (fraction, rest) := match rest with
    | '.' :: r => (r.takeWhile isDigit, r.dropWhile isDigit)
    | r => ([], r)
  if whole.isEmpty && fraction.isEmpty then none
  else
    let e ← readExponent rest
    return ⟨natOfDigits (whole ++ fraction), e - fraction.length⟩

def readFloat? (cs : List Char) : Option Float :=
  let (negative, body) := splitSign cs
  let name := body.map Char.toLower
  let magnitude :=
    if name = ['i', 'n', 'f'] || name = ['i', 'n', 'f', 'i', 'n', 'i', 't', 'y'] then some (1 / 0)
    else if name = ['n', 'a', 'n'] then some (0 / 0)
    else (readMagnitude body).map Literal.toFloat
  magnitude.map fun x => if negative then -x else x

end GatewayTelemetry.Decimal
