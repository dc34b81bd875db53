/-! # Shortest decimal of a double

A finite double is a natural multiple of a power of two. Of all decimals that read back as the
same double, the shortest is the one with the fewest digits, and of those the nearest to it. On
the grid of `n`-digit decimals it is enough to look at the two neighbours of the value, since a
grid point inside the rounding interval forces one of them inside as well.
-/

namespace GatewayTelemetry.Decimal

/-- The magnitude `mantissa * 2 ^ exponent` of a finite double. `narrow` marks a mantissa at the
foot of its binade, where the gap below is half the gap above. -/
structure Binary where
  mantissa : Nat
  exponent : Int
  narrow : Bool
  deriving Repr, DecidableEq

def hidden : Nat := 4503599627370496

def binaryOf (x : Float) : Binary :=
  let bits := x.toBits.toNat
  let fraction := bits % hidden
  let stored := bits / hidden % 2048
  if stored = 0 then ⟨fraction, -1074, false⟩
  else ⟨hidden + fraction, Int.ofNat stored - 1075, fraction == 0 && decide (1 < stored)⟩

def isNegative (x : Float) : Bool := 2048 * hidden ≤ x.toBits.toNat

structure Scientific where
  digits : Nat
  exponent : Int
  deriving Repr, DecidableEq

def digitList (n : Nat) : List Nat :=
  if _h : n < 10 then [n] else digitList (n / 10) ++ [n % 10]
termination_by n
decreasing_by omega

def digitChar (n : Nat) : Char := Char.ofNat (0x30 + n)

def digitChars (n : Nat) : List Char := (digitList n).map digitChar

def leadingExponent (num den : Nat) : Int :=
  if den ≤ num then ((digitList (num / den)).length : Int) - 1
  else
    let steps := (List.range 400).find? fun j => den ≤ num * Nat.pow 10 j
    Int.negOfNat (steps.getD 400)

def scaled (n : Nat) (e k : Int) : Nat × Nat :=
  (n * Nat.pow 2 e.toNat * Nat.pow 10 (-k).toNat, Nat.pow 2 (-e).toNat * Nat.pow 10 k.toNat)

/-- The nearest point of the grid of step `10 ^ k` that still reads back, if one does. A tie goes
to the even digit. -/
def gridPoint? (b : Binary) (k : Int) : Option Nat :=
  let e := b.exponent - 2
  let (num, den) := scaled (4 * b.mantissa) e k
  let (above, _) := scaled (4 * b.mantissa + 2) e k
  let (below, _) := scaled (if b.narrow then 4 * b.mantissa - 1 else 4 * b.mantissa - 2) e k
  let ends := b.mantissa % 2 = 0
  let reads (c : Nat) : Bool :=
    if ends then below ≤ c * den && c * den ≤ above else below < c * den && c * den < above
  let low := num / den
  let rest := num % den
  let lowReads := 0 < low && reads low
  let highReads := reads (low + 1)
  if lowReads && highReads then
    if 2 * rest < den then some low
    else if den < 2 * rest then some (low + 1)
    else some (if low % 2 = 0 then low else low + 1)
  else if lowReads then some low
  else if highReads then some (low + 1)
  else none

def trimZeros (n : Nat) (e : Int) : Scientific :=
  if _h : 0 < n ∧ n % 10 = 0 then trimZeros (n / 10) (e + 1) else ⟨n, e⟩
termination_by n
decreasing_by omega

/-- The shortest decimal of a magnitude; seventeen digits always suffice. -/
def shortest (b : Binary) : Scientific :=
  if b.mantissa = 0 then ⟨0, 0⟩ else
  let (num, den) := scaled b.mantissa b.exponent 0
  let top := leadingExponent num den
  let found := (List.range 17).findSome? fun (n : Nat) =>
    (gridPoint? b (top - n)).map fun c => trimZeros c (top - n)
  found.getD ⟨0, 0⟩

end GatewayTelemetry.Decimal
