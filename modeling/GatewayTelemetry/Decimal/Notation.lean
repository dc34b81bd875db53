import GatewayTelemetry.Decimal.Shortest

/-! # Written doubles

A style fixes which leading exponents are written positionally; outside that range a decimal
carries an exponent with its sign. A whole number keeps one zero behind the point.
-/

namespace GatewayTelemetry.Decimal

structure Style where
  lowest : Int
  highest : Int

/-- Positional from `0.00001` up to sixteen digits before the point. -/
def Style.message : Style := ⟨-5, 15⟩

def signText (negative : Bool) : String := if negative then "-" else ""

def positional (digits : List Char) (exponent : Int) : List Char :=
  let leading := (digits.length : Int) - 1 + exponent
  if 0 ≤ exponent then digits ++ List.replicate exponent.toNat '0' ++ ['.', '0']
  else if 0 ≤ leading then
    digits.take (leading.toNat + 1) ++ '.' :: digits.drop (leading.toNat + 1)
  else '0' :: '.' :: List.replicate (-leading - 1).toNat '0' ++ digits

def withExponent (digits : List Char) (exponent : Int) : List Char :=
  let leading := (digits.length : Int) - 1 + exponent
  let tail := match digits.drop 1 with
    | [] => []
    | rest => '.' :: rest
  let mark := if leading < 0 then ['e', '-'] else ['e', '+']
  digits.take 1 ++ tail ++ mark ++ digitChars leading.natAbs

def Style.magnitude (style : Style) (s : Scientific) : List Char :=
  let digits := digitChars s.digits
  let leading := (digits.length : Int) - 1 + s.exponent
  if style.lowest ≤ leading && leading ≤ style.highest then positional digits s.exponent
  else withExponent digits s.exponent

def Style.write (style : Style) (x : Float) : String :=
  if x.isNaN then "NaN"
  else if x.isInf then signText (isNegative x) ++ "inf"
  else signText (isNegative x) ++ String.ofList (style.magnitude (shortest (binaryOf x)))

end GatewayTelemetry.Decimal
