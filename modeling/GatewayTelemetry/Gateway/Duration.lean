import GatewayTelemetry.Decimal.Read
import GatewayTelemetry.Text.Blank

/-! # Duration texts

A duration is a row of terms, each a decimal number directly followed by a unit, as in `1m2.5s`.
The number takes all digits and points that follow, the unit everything up to the next of them.
-/

namespace GatewayTelemetry.Duration

inductive Scale where
  | nanosecond
  | microsecond
  | millisecond
  | second
  | minute
  | hour
  deriving Repr, DecidableEq

namespace Scale

/-- The microsecond has three spellings: with a letter, the micro sign, and the Greek letter. -/
def ofChars? (cs : List Char) : Option Scale :=
  if cs = ['n', 's'] then some nanosecond
  else if cs = ['u', 's'] || cs = ['\u00b5', 's'] || cs = ['\u03bc', 's'] then some microsecond
  else if cs = ['m', 's'] then some millisecond
  else if cs = ['s'] then some second
  else if cs = ['m'] then some minute
  else if cs = ['h'] then some hour
  else none

def millis : Scale → Float
  | nanosecond => 1e-6
  | microsecond => 1e-3
  | millisecond => 1.0
  | second => 1e3
  | minute => 60e3
  | hour => 3600e3

def nanos : Scale → Nat
  | nanosecond => 1
  | microsecond => 1000
  | millisecond => 1000000
  | second => 1000000000
  | minute => 60000000000
  | hour => 3600000000000

end Scale

structure Term where
  number : Decimal.Literal
  scale : Scale
  deriving Repr, DecidableEq

def isNumberChar (c : Char) : Bool := Decimal.isDigit c || c = '.'

def behindTerm (cs : List Char) : List Char :=
  (cs.dropWhile isNumberChar).dropWhile fun c => !isNumberChar c

theorem length_behindTerm_lt {cs : List Char} (h : cs ≠ []) :
    (behindTerm cs).length < cs.length := by
  cases cs with
  | nil => exact absurd rfl h
  | cons c rest =>
    unfold behindTerm
    by_cases hc : isNumberChar c = true
    · have h₁ := (List.dropWhile_sublist (l := rest.dropWhile isNumberChar)
        fun c => !isNumberChar c).length_le
      have h₂ := (List.dropWhile_sublist (l := rest) isNumberChar).length_le
      rw [List.dropWhile_cons_of_pos hc, List.length_cons]
      omega
    · have h₁ := (List.dropWhile_sublist (l := rest) fun c => !isNumberChar c).length_le
      rw [List.dropWhile_cons_of_neg hc, List.dropWhile_cons_of_pos (by simpa using hc),
        List.length_cons]
      omega

def readTerms (cs : List Char) : Option (List Term) :=
  if _h : cs = [] then some []
  else do
    let number ← Decimal.readMagnitude (cs.takeWhile isNumberChar)
    let scale ← Scale.ofChars? ((cs.dropWhile isNumberChar).takeWhile fun c => !isNumberChar c)
    let rest ← readTerms (behindTerm cs)
    return ⟨number, scale⟩ :: rest
termination_by cs.length
decreasing_by exact length_behindTerm_lt _h

def millis (terms : List Term) : Float :=
  terms.foldl (fun total t => total + t.number.toFloat * t.scale.millis) 0

def terms? (text : String) : Option (List Term) :=
  match Text.trim text.toList with
  | [] => none
  | cs => readTerms cs

def parse? (text : String) : Option Float := (terms? text).map millis

end GatewayTelemetry.Duration
