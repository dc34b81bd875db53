import GatewayTelemetry.Decimal.Notation
import GatewayTelemetry.Proofs.Decimal.Shortest

/-! # Written doubles

The text of a finite double is a decimal fraction that is rounded to the double, behind a minus sign
if the double has one.
-/

namespace GatewayTelemetry.Decimal

open GatewayTelemetry.Binary (Fits Holds RoundsTo signed fits_binaryOf roundsTo_of_holds
  roundsTo_zero)

/-- Digits without a zero in front, but for zero itself. -/
structure Whole (ds : List Char) : Prop extends Digits ds where
  leading : ds.head? = some '0' → ds = ['0']

inductive Fraction : List Char → List Char → Prop
  | none : Fraction [] []
  | point {ds : List Char} (h : Digits ds) : Fraction ('.' :: ds) ds

inductive Exponent : List Char → ℤ → Prop
  | none : Exponent [] 0
  | bare {mark : Char} {ds : List Char} (hMark : mark = 'e' ∨ mark = 'E') (h : Digits ds) :
      Exponent (mark :: ds) (rowValue ds)
  | plus {mark : Char} {ds : List Char} (hMark : mark = 'e' ∨ mark = 'E') (h : Digits ds) :
      Exponent (mark :: '+' :: ds) (rowValue ds)
  | minus {mark : Char} {ds : List Char} (hMark : mark = 'e' ∨ mark = 'E') (h : Digits ds) :
      Exponent (mark :: '-' :: ds) (-rowValue ds)

/-- A decimal fraction without a sign: it has a point or an exponent. -/
inductive Real : List Char → ℚ → Prop
  | parts {whole point fraction mark : List Char} {k : ℤ} (hWhole : Whole whole)
      (hFraction : Fraction point fraction) (hExponent : Exponent mark k)
      (hSome : point ≠ [] ∨ mark ≠ []) :
      Real (whole ++ point ++ mark) (rowValue (whole ++ fraction) * 10 ^ (k - fraction.length))

variable {d : ℕ} {e : ℤ} {x : Float}

theorem whole_of_head (h : 0 < d) {ds : List Char} (hDigits : Digits ds)
    (hHead : ds.head? = (digitChars d).head?) : Whole ds :=
  ⟨hDigits, fun hZero => absurd (hHead.symm.trans hZero) (head?_digitChars h)⟩

theorem digitChars_zero : digitChars 0 = ['0'] := digitChars_of_lt (by decide)

theorem whole_digitChars (d : ℕ) : Whole (digitChars d) := by
  rcases Nat.eq_zero_or_pos d with rfl | hPos
  · rw [digitChars_zero]
    exact ⟨⟨List.cons_ne_nil _ _, isDigit_zeros 1⟩, fun _ => rfl⟩
  · exact whole_of_head hPos (digits_digitChars d) rfl

theorem digits_zero : Digits ['0'] := digitChars_zero ▸ digits_digitChars 0

theorem positional_of_nonneg (hDigits : 0 < d ∨ e = 0) (h : 0 ≤ e) :
    Real (positional (digitChars d) e) (d * 10 ^ e) := by
  have hText : positional (digitChars d) e =
      digitChars d ++ List.replicate e.toNat '0' ++ '.' :: ['0'] ++ [] := by
    rw [positional, if_pos h, List.append_nil]
  have hWhole : Whole (digitChars d ++ List.replicate e.toNat '0') := by
    rcases hDigits with hPos | rfl
    · refine whole_of_head hPos ((digits_digitChars d).append (isDigit_zeros _)) ?_
      have hFilled := List.isSome_head?.mpr (digits_digitChars d).filled
      rw [List.head?_append, Option.or_of_isSome hFilled]
    · rw [Int.toNat_zero, List.replicate_zero, List.append_nil]
      exact whole_digitChars d
  have hRow : rowValue (digitChars d ++ List.replicate e.toNat '0' ++ ['0']) =
      d * 10 ^ e.toNat * 10 := by
    rw [rowValue_append, rowValue_append, rowValue_digitChars, rowValue_zeros,
      List.length_replicate]
    rfl
  have hValue : (rowValue (digitChars d ++ List.replicate e.toNat '0' ++ ['0']) : ℚ) *
      10 ^ ((0 : ℤ) - ['0'].length) = d * 10 ^ e := by
    have hTenth : (10 : ℚ) ^ ((0 : ℤ) - ['0'].length) = 1 / 10 := by norm_num
    obtain ⟨n, rfl⟩ := Int.eq_ofNat_of_zero_le h
    rw [hRow, hTenth, Int.toNat_natCast, zpow_natCast]
    push_cast
    ring
  rw [hText, ← hValue]
  exact .parts hWhole (.point digits_zero) .none (.inl (List.cons_ne_nil _ _))

theorem positional_of_leading (hPos : 0 < d) (h : e < 0)
    (hLeading : 0 ≤ ((digitChars d).length : ℤ) - 1 + e) :
    Real (positional (digitChars d) e) (d * 10 ^ e) := by
  let cut := (((digitChars d).length : ℤ) - 1 + e).toNat + 1
  have hText : positional (digitChars d) e =
      (digitChars d).take cut ++ '.' :: (digitChars d).drop cut ++ [] := by
    rw [positional, if_neg (not_le.mpr h), if_pos hLeading, List.append_nil]
  have hDigits := digits_digitChars d
  have hWhole : Whole ((digitChars d).take cut) := by
    refine whole_of_head hPos ⟨?_, fun c hc => hDigits.digits c (List.mem_of_mem_take hc)⟩ ?_
    · exact fun hNone => (List.take_eq_nil_iff.mp hNone).elim nofun hDigits.filled
    · rw [List.head?_take, if_neg (Nat.succ_ne_zero _)]
  have hFraction : Digits ((digitChars d).drop cut) := by
    refine ⟨fun hNone => ?_, fun c hc => hDigits.digits c (List.mem_of_mem_drop hc)⟩
    have hLength := List.drop_eq_nil_iff.mp hNone
    omega
  have hPlaces : (0 : ℤ) - ((digitChars d).drop cut).length = e := by
    rw [List.length_drop]
    omega
  rw [hText]
  have hReal := Real.parts hWhole (.point hFraction) .none (.inl (List.cons_ne_nil _ _))
  rwa [List.take_append_drop, rowValue_digitChars, hPlaces] at hReal

theorem positional_of_small (h : e < 0) (hLeading : ((digitChars d).length : ℤ) - 1 + e < 0) :
    Real (positional (digitChars d) e) (d * 10 ^ e) := by
  let fraction :=
    List.replicate (-(((digitChars d).length : ℤ) - 1 + e) - 1).toNat '0' ++ digitChars d
  have hText : positional (digitChars d) e = ['0'] ++ '.' :: fraction ++ [] := by
    rw [positional, if_neg (not_le.mpr h), if_neg (not_le.mpr hLeading), List.append_nil]
    rfl
  have hDigits := digits_digitChars d
  have hFraction : Digits fraction := by
    refine ⟨List.append_ne_nil_of_right_ne_nil _ hDigits.filled, fun c hc => ?_⟩
    exact (List.mem_append.mp hc).elim (isDigit_zeros _ c) (hDigits.digits c)
  have hRow : rowValue (['0'] ++ fraction) = d := by
    have hZero : rowValue ['0'] = 0 := rfl
    rw [rowValue_append, rowValue_append, hZero, rowValue_zeros, rowValue_digitChars]
    simp
  have hPlaces : (0 : ℤ) - fraction.length = e := by
    rw [List.length_append, List.length_replicate]
    omega
  rw [hText]
  have hPoint := Fraction.point hFraction
  have hReal := Real.parts (whole_digitChars 0) hPoint .none (.inl (List.cons_ne_nil _ _))
  rwa [digitChars_zero, hRow, hPlaces] at hReal

theorem Digits.whole_take_one {ds : List Char} (h : Digits ds) : Whole (ds.take 1) := by
  obtain ⟨c, rest, rfl⟩ := List.exists_cons_of_ne_nil h.filled
  refine ⟨⟨List.cons_ne_nil _ _, fun c hc => h.digits c (List.mem_of_mem_take hc)⟩, ?_⟩
  exact fun hHead => congrArg (fun c => [c]) (Option.some.inj hHead)

theorem exponent_of_leading (leading : ℤ) :
    Exponent ((if leading < 0 then ['e', '-'] else ['e', '+']) ++ digitChars leading.natAbs)
      leading := by
  have hMark := digits_digitChars leading.natAbs
  split
  · have hMinus := Exponent.minus (.inl rfl) hMark
    have hValue : -(leading.natAbs : ℤ) = leading := by omega
    rwa [rowValue_digitChars, hValue] at hMinus
  · have hPlus := Exponent.plus (.inl rfl) hMark
    have hValue : (leading.natAbs : ℤ) = leading := by omega
    rwa [rowValue_digitChars, hValue] at hPlus

theorem withExponent_eq {ds : List Char} (h : Digits ds) (e : ℤ) :
    ∃ point mark, Fraction point (ds.drop 1) ∧ Exponent mark ((ds.length : ℤ) - 1 + e) ∧
      mark ≠ [] ∧ withExponent ds e = ds.take 1 ++ point ++ mark := by
  have hExponent := exponent_of_leading ((ds.length : ℤ) - 1 + e)
  have hSome : ∀ sign, sign ++ digitChars ((ds.length : ℤ) - 1 + e).natAbs ≠ [] :=
    fun sign => List.append_ne_nil_of_right_ne_nil sign (digits_digitChars _).filled
  have hDrop : ∀ c ∈ ds.drop 1, isDigit c = true :=
    fun c hc => h.digits c (List.mem_of_mem_drop hc)
  unfold withExponent
  dsimp only
  generalize ds.drop 1 = rest at hDrop
  cases rest with
  | nil => exact ⟨[], _, .none, hExponent, hSome _, List.append_assoc _ _ _⟩
  | cons c rest =>
    have hPoint : Fraction ('.' :: c :: rest) (c :: rest) := .point ⟨List.cons_ne_nil _ _, hDrop⟩
    exact ⟨_, _, hPoint, hExponent, hSome _, List.append_assoc _ _ _⟩

theorem withExponent_real (d : ℕ) (e : ℤ) :
    Real (withExponent (digitChars d) e) (d * 10 ^ e) := by
  have hDigits := digits_digitChars d
  obtain ⟨point, mark, hFraction, hExponent, hSome, hText⟩ := withExponent_eq hDigits e
  have hPlaces : ((digitChars d).length : ℤ) - 1 + e - ((digitChars d).drop 1).length = e := by
    have hFilled := List.length_pos_iff.mpr hDigits.filled
    rw [List.length_drop]
    omega
  have hReal := Real.parts hDigits.whole_take_one hFraction hExponent (.inr hSome)
  rw [List.take_append_drop, rowValue_digitChars, hPlaces] at hReal
  rwa [hText]

theorem magnitude_real (style : Style) {s : Scientific} (h : 0 < s.digits ∨ s.exponent = 0) :
    Real (style.magnitude s) (s.digits * 10 ^ s.exponent) := by
  rw [Style.magnitude]
  split
  · rcases le_or_gt 0 s.exponent with hWhole | hPlaces
    · exact positional_of_nonneg h hWhole
    · rcases le_or_gt 0 (((digitChars s.digits).length : ℤ) - 1 + s.exponent) with hBoth | hSmall
      · exact positional_of_leading (h.resolve_right hPlaces.ne) hPlaces hBoth
      · exact positional_of_small hPlaces hSmall
  · exact withExponent_real s.digits s.exponent

theorem not_special (h : x.isFinite = true) : x.isNaN = false ∧ x.isInf = false := by
  have hFinite : x.toModel.unpack.isFinite = true := h
  show x.toModel.unpack.isNaN = false ∧ x.toModel.unpack.isInf = false
  generalize x.toModel.unpack = u at hFinite
  cases u with
  | finite | zero => exact ⟨rfl, rfl⟩
  | infinity | notANumber => cases hFinite

theorem toList_write (style : Style) (h : x.isFinite = true) :
    (style.write x).toList =
      if isNegative x then '-' :: style.magnitude (shortest (binaryOf x))
      else style.magnitude (shortest (binaryOf x)) := by
  obtain ⟨hNaN, hInf⟩ := not_special h
  rw [Style.write, if_neg (Bool.eq_false_iff.mp hNaN), if_neg (Bool.eq_false_iff.mp hInf),
    String.toList_append, String.toList_ofList, signText]
  split <;> rfl

theorem shortest_roundsTo (h : x.isFinite = true) :
    RoundsTo (signed (isNegative x)
      ((shortest (binaryOf x)).digits * 10 ^ (shortest (binaryOf x)).exponent)) x ∧
      (0 < (shortest (binaryOf x)).digits ∨ (shortest (binaryOf x)).exponent = 0) := by
  have hFits := fits_binaryOf h
  rcases Nat.eq_zero_or_pos (binaryOf x).mantissa with hZero | hPos
  · have hNone : shortest (binaryOf x) = ⟨0, 0⟩ := if_pos hZero
    have hSigned : signed (isNegative x) ((0 : ℕ) * 10 ^ (0 : ℤ)) = 0 := by
      rw [Nat.cast_zero, zero_mul, signed, neg_zero, ite_self]
    rw [hNone, hSigned]
    exact ⟨roundsTo_zero h hZero, .inr rfl⟩
  · have hHolds := shortest_holds hFits hPos
    exact ⟨roundsTo_of_holds h hPos hHolds, .inl (digits_shortest_pos hFits hPos)⟩

/-- A finite double is written as a decimal fraction that is rounded to it, with its own sign. -/
theorem write_spec (style : Style) (h : x.isFinite = true) :
    ∃ cs q, Real cs q ∧ RoundsTo (signed (isNegative x) q) x ∧
      (style.write x).toList = if isNegative x then '-' :: cs else cs := by
  obtain ⟨hRounds, hDigits⟩ := shortest_roundsTo h
  exact ⟨_, _, magnitude_real style hDigits, hRounds, toList_write style h⟩

end GatewayTelemetry.Decimal
