import GatewayTelemetry.Decimal.Read
import GatewayTelemetry.Proofs.Text.Cut
import Mathlib.Data.List.Induction
import Mathlib.Data.Nat.Digits.Defs
import Mathlib.Algebra.Order.Field.Rat
import Mathlib.Tactic.Ring

/-! # Numbers of digits and a point

A number without sign and exponent is a row of digits with at most one point anywhere in it, and
with a digit at least. Among the rows of digits and points these are exactly the ones that are read,
each as its digits with as many decimal places as stand behind the point.
-/

namespace GatewayTelemetry.Decimal

structure Numeral (cs : List Char) : Prop where
  chars : ∀ c ∈ cs, isDigit c = true ∨ c = '.'
  points : cs.count '.' ≤ 1
  digits : ∃ c ∈ cs, isDigit c = true

def places (cs : List Char) : ℕ := (cs.dropWhile (· ≠ '.')).length - 1

def numeralValue (cs : List Char) : ℚ :=
  (Nat.ofDigits 10 ((cs.filter isDigit).map digitValue).reverse : ℕ) / 10 ^ places cs

def literalOf (cs : List Char) : Literal := ⟨natOfDigits (cs.filter isDigit), -(places cs : ℤ)⟩

def Literal.value (l : Literal) : ℚ := l.mantissa * 10 ^ l.exponent

variable {cs ds whole fraction : List Char}

theorem foldl_eq_ofDigits (base : ℕ) (ds : List ℕ) :
    ds.foldl (fun n d => n * base + d) 0 = Nat.ofDigits base ds.reverse := by
  induction ds using List.reverseRecOn with
  | nil => rfl
  | append_singleton ds d ih =>
    rw [List.foldl_append, List.foldl_cons, List.foldl_nil, ih, List.reverse_append,
      List.reverse_singleton, List.singleton_append, Nat.ofDigits_cons]
    ring

theorem natOfDigits_eq_ofDigits (ds : List Char) :
    natOfDigits ds = Nat.ofDigits 10 (ds.map digitValue).reverse := by
  rw [natOfDigits, ← foldl_eq_ofDigits, List.foldl_map]

theorem value_literalOf (cs : List Char) : (literalOf cs).value = numeralValue cs := by
  rw [numeralValue, ← natOfDigits_eq_ofDigits, div_eq_mul_inv, ← zpow_natCast, ← zpow_neg]
  rfl

theorem not_isDigit_point : isDigit '.' = false := by decide

theorem takeWhile_digits (h : ∀ c ∈ ds, isDigit c = true) (rest : List Char) :
    (ds ++ '.' :: rest).takeWhile isDigit = ds ∧
      (ds ++ '.' :: rest).dropWhile isDigit = '.' :: rest := by
  refine List.span_append h ?_
  rintro _ ⟨⟩
  exact not_isDigit_point

theorem readMagnitude_digits (h : ∀ c ∈ ds, isDigit c = true) :
    readMagnitude ds = if ds = [] then none else some ⟨natOfDigits ds, 0⟩ := by
  have hWhole : ds.takeWhile isDigit = ds := List.takeWhile_eq_self_iff.mpr h
  have hRest : ds.dropWhile isDigit = [] := List.dropWhile_eq_nil_iff.mpr h
  rw [readMagnitude, hWhole, hRest]
  cases ds with
  | nil => rfl
  | cons d ds => simp [readExponent]

theorem readMagnitude_point (hWhole : ∀ c ∈ whole, isDigit c = true)
    (hFraction : ∀ c ∈ fraction, isDigit c = true) :
    readMagnitude (whole ++ '.' :: fraction) =
      if whole ++ fraction = [] then none
      else some ⟨natOfDigits (whole ++ fraction), -(fraction.length : ℤ)⟩ := by
  obtain ⟨hTake, hDrop⟩ := takeWhile_digits hWhole fraction
  have hTakeNext : fraction.takeWhile isDigit = fraction := List.takeWhile_eq_self_iff.mpr hFraction
  have hDropNext : fraction.dropWhile isDigit = [] := List.dropWhile_eq_nil_iff.mpr hFraction
  simp only [readMagnitude, hTake, hDrop, hTakeNext, hDropNext]
  by_cases hNone : whole = [] ∧ fraction = []
  · simp [hNone]
  · have hFilled : (whole.isEmpty && fraction.isEmpty) = false := by
      simpa [List.isEmpty_iff] using hNone
    simp [hFilled, hNone, readExponent]

theorem readMagnitude_points (hWhole : ∀ c ∈ whole, isDigit c = true)
    (hFraction : ∀ c ∈ fraction, isDigit c = true) (rest : List Char) :
    readMagnitude (whole ++ '.' :: (fraction ++ '.' :: rest)) = none := by
  obtain ⟨hTake, hDrop⟩ := takeWhile_digits hWhole (fraction ++ '.' :: rest)
  obtain ⟨hTakeNext, hDropNext⟩ := takeWhile_digits hFraction rest
  simp only [readMagnitude, hTake, hDrop, hTakeNext, hDropNext]
  simp [readExponent]

theorem digits_or_point (h : ∀ c ∈ cs, isDigit c = true ∨ c = '.') :
    (∀ c ∈ cs, isDigit c = true) ∨
      ∃ whole rest, cs = whole ++ '.' :: rest ∧ ∀ c ∈ whole, isDigit c = true := by
  cases hRest : cs.dropWhile isDigit with
  | nil => exact .inl (List.dropWhile_eq_nil_iff.mp hRest)
  | cons c rest =>
    have hNot := List.head?_dropWhile_not isDigit cs
    rw [hRest] at hNot
    have hMem : c ∈ cs := (List.dropWhile_sublist isDigit).subset (hRest ▸ List.mem_cons_self)
    have hPoint : c = '.' := (h c hMem).resolve_left (by simpa using hNot)
    refine .inr ⟨cs.takeWhile isDigit, rest, ?_, fun c hc => List.mem_takeWhile_imp hc⟩
    rw [← hPoint, ← hRest, List.takeWhile_append_dropWhile]

theorem not_mem_digits (h : ∀ c ∈ ds, isDigit c = true) : '.' ∉ ds := by
  intro hMem
  have hDigit := h '.' hMem
  rw [not_isDigit_point] at hDigit
  cases hDigit

theorem numeral_digits_iff (h : ∀ c ∈ ds, isDigit c = true) : Numeral ds ↔ ds ≠ [] := by
  constructor
  · rintro ⟨_, _, c, hc, _⟩ rfl
    cases hc
  · intro hFilled
    obtain ⟨c, hc⟩ := List.exists_mem_of_ne_nil ds hFilled
    refine ⟨fun c hc => .inl (h c hc), ?_, c, hc, h c hc⟩
    rw [List.count_eq_zero.mpr (not_mem_digits h)]
    exact Nat.zero_le 1

theorem numeral_point_iff (hWhole : ∀ c ∈ whole, isDigit c = true)
    (hFraction : ∀ c ∈ fraction, isDigit c = true) :
    Numeral (whole ++ '.' :: fraction) ↔ whole ++ fraction ≠ [] := by
  have hDigits : ∀ c ∈ whole ++ fraction, isDigit c = true :=
    fun c hc => (List.mem_append.mp hc).elim (hWhole c) (hFraction c)
  have hMem : ∀ c, c ∈ whole ++ '.' :: fraction ↔ c = '.' ∨ c ∈ whole ++ fraction := by
    intro c
    simp only [List.mem_append, List.mem_cons]
    tauto
  constructor
  · rintro ⟨_, _, c, hc, hDigit⟩
    rcases (hMem c).mp hc with rfl | hc
    · rw [not_isDigit_point] at hDigit
      cases hDigit
    · exact List.ne_nil_of_mem hc
  · intro hFilled
    obtain ⟨c, hc⟩ := List.exists_mem_of_ne_nil _ hFilled
    refine ⟨fun c hc => ?_, ?_, c, (hMem c).mpr (.inr hc), hDigits c hc⟩
    · exact ((hMem c).mp hc).symm.imp_left (hDigits c)
    · rw [List.count_append, List.count_cons_self, List.count_eq_zero.mpr (not_mem_digits hWhole),
        List.count_eq_zero.mpr (not_mem_digits hFraction)]

theorem not_numeral_points (rest : List Char) :
    ¬ Numeral (whole ++ '.' :: (fraction ++ '.' :: rest)) := by
  rintro ⟨_, hPoints, _⟩
  simp only [List.count_append, List.count_cons_self] at hPoints
  omega

theorem literalOf_digits (h : ∀ c ∈ ds, isDigit c = true) :
    literalOf ds = ⟨natOfDigits ds, 0⟩ := by
  have hNoPoint : ds.dropWhile (· ≠ '.') = [] :=
    List.dropWhile_eq_nil_iff.mpr fun c hc =>
      decide_eq_true fun hPoint => not_mem_digits h (hPoint ▸ hc)
  rw [literalOf, places, hNoPoint, List.filter_eq_self.mpr h]
  rfl

theorem literalOf_point (hWhole : ∀ c ∈ whole, isDigit c = true)
    (hFraction : ∀ c ∈ fraction, isDigit c = true) :
    literalOf (whole ++ '.' :: fraction) =
      ⟨natOfDigits (whole ++ fraction), -(fraction.length : ℤ)⟩ := by
  have hBehind : (whole ++ '.' :: fraction).dropWhile (· ≠ '.') = '.' :: fraction := by
    rw [List.dropWhile_append_of_pos]
    · simp
    · exact fun c hc => decide_eq_true fun hPoint => not_mem_digits hWhole (hPoint ▸ hc)
  have hDigits : (whole ++ '.' :: fraction).filter isDigit = whole ++ fraction := by
    rw [List.filter_append, List.filter_cons_of_neg (by simp [not_isDigit_point]),
      List.filter_eq_self.mpr hWhole, List.filter_eq_self.mpr hFraction]
  rw [literalOf, places, hBehind, hDigits]
  simp

theorem readMagnitude_eq_some_iff (h : ∀ c ∈ cs, isDigit c = true ∨ c = '.') {l : Literal} :
    readMagnitude cs = some l ↔ Numeral cs ∧ l = literalOf cs := by
  rcases digits_or_point h with hDigits | ⟨whole, rest, rfl, hWhole⟩
  · rw [readMagnitude_digits hDigits, numeral_digits_iff hDigits, literalOf_digits hDigits,
      Option.ite_none_left_eq_some, Option.some.injEq, eq_comm (a := l)]
  · have hRest : ∀ c ∈ rest, isDigit c = true ∨ c = '.' := fun c hc => h c (by simp [hc])
    rcases digits_or_point hRest with hFraction | ⟨fraction, rest, rfl, hFraction⟩
    · rw [readMagnitude_point hWhole hFraction, numeral_point_iff hWhole hFraction,
        literalOf_point hWhole hFraction, Option.ite_none_left_eq_some, Option.some.injEq,
        eq_comm (a := l)]
    · rw [readMagnitude_points hWhole hFraction]
      exact ⟨nofun, fun hBoth => absurd hBoth.1 (not_numeral_points rest)⟩

end GatewayTelemetry.Decimal
