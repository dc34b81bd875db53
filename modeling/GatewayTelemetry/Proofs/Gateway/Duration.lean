import GatewayTelemetry.Gateway.Duration
import GatewayTelemetry.Proofs.Decimal.Numeral
import Mathlib.Data.List.Basic

/-! # The grammar of duration texts

A duration text is a row of terms, at least one, with blanks around it. A term is a numeral directly
followed by a spelling of a unit. No character of a spelling can stand in a numeral, so a text is
such a row in one way only, and cutting it where the class of the characters changes finds it.
-/

namespace GatewayTelemetry

namespace Duration

namespace Scale

def spellings : Scale → List (List Char)
  | nanosecond => [['n', 's']]
  | microsecond => [['u', 's'], ['\u00b5', 's'], ['\u03bc', 's']]
  | millisecond => [['m', 's']]
  | second => [['s']]
  | minute => [['m']]
  | hour => [['h']]

def literal (s : Scale) : Decimal.Literal := ⟨s.nanos, -6⟩

theorem millis_eq (s : Scale) : s.millis = s.literal.toFloat := by
  cases s <;> decide +kernel

theorem ofChars?_eq_some_iff {cs : List Char} {s : Scale} :
    ofChars? cs = some s ↔ cs ∈ s.spellings := by
  constructor
  · intro h
    unfold ofChars? at h
    split_ifs at h <;> cases h <;> simp_all [spellings, or_assoc]
  · intro h
    cases s <;> simp only [spellings, List.mem_cons, List.not_mem_nil, or_false] at h
    case microsecond => rcases h with rfl | rfl | rfl <;> rfl
    all_goals
      subst h
      rfl

theorem spelling_filled {s : Scale} : ∀ u ∈ s.spellings, u ≠ [] := by
  cases s <;> decide

theorem spelling_chars {s : Scale} :
    ∀ u ∈ s.spellings, ∀ c ∈ u, isNumberChar c = false ∧ Text.isBlank c = false := by
  cases s <;> simp [spellings, isNumberChar, Decimal.isDigit, Text.isBlank]

end Scale

theorem isNumberChar_iff {c : Char} :
    isNumberChar c = true ↔ Decimal.isDigit c = true ∨ c = '.' := by
  simp [isNumberChar]

structure Written where
  number : List Char
  unit : List Char
  scale : Scale
  numeral : Decimal.Numeral number
  spelled : unit ∈ scale.spellings

namespace Written

def text (t : Written) : List Char := t.number ++ t.unit

def term (t : Written) : Term := ⟨Decimal.literalOf t.number, t.scale⟩

def millis (t : Written) : ℚ := Decimal.numeralValue t.number * t.scale.literal.value

variable (t : Written)

theorem number_chars : ∀ c ∈ t.number, isNumberChar c = true :=
  fun c hc => isNumberChar_iff.mpr (t.numeral.chars c hc)

theorem number_filled : t.number ≠ [] := by
  obtain ⟨c, hc, _⟩ := t.numeral.digits
  exact List.ne_nil_of_mem hc

theorem head_unit (rest : List Char) :
    ∀ c ∈ (t.unit ++ rest).head?, isNumberChar c = false := by
  intro c hc
  rw [List.head?_append_of_ne_nil _ (Scale.spelling_filled _ t.spelled)] at hc
  exact (Scale.spelling_chars _ t.spelled c (List.mem_of_mem_head? hc)).1

theorem texts_filled (ts : List Written) : (t :: ts).flatMap text ≠ [] := by
  intro hNone
  rw [List.flatMap_cons, text] at hNone
  exact t.number_filled (List.append_eq_nil_iff.mp (List.append_eq_nil_iff.mp hNone).1).1

theorem head_texts (ts : List Written) :
    ∀ c ∈ (ts.flatMap text).head?, isNumberChar c = true := by
  cases ts with
  | nil => exact fun c hc => nomatch hc
  | cons t ts =>
    intro c hc
    rw [List.flatMap_cons, text, List.append_assoc, List.head?_append_of_ne_nil _ t.number_filled]
      at hc
    exact t.number_chars c (List.mem_of_mem_head? hc)

/-- Where the characters change their class, the first term is cut off. -/
theorem cut (ts : List Written) :
    ((t :: ts).flatMap text).takeWhile isNumberChar = t.number ∧
      (((t :: ts).flatMap text).dropWhile isNumberChar).takeWhile (fun c => !isNumberChar c) =
        t.unit ∧
      behindTerm ((t :: ts).flatMap text) = ts.flatMap text := by
  have hText : (t :: ts).flatMap text = t.number ++ (t.unit ++ ts.flatMap text) := by
    rw [List.flatMap_cons, text, List.append_assoc]
  obtain ⟨hNumber, hBehind⟩ := List.span_append t.number_chars (t.head_unit (ts.flatMap text))
  have hUnit : ∀ c ∈ t.unit, (!isNumberChar c) = true := by
    intro c hc
    simp [(Scale.spelling_chars _ t.spelled c hc).1]
  obtain ⟨hSpelling, hRest⟩ := List.span_append hUnit fun c hc => by simp [head_texts ts c hc]
  rw [behindTerm, hText, hBehind]
  exact ⟨hNumber, hSpelling, hRest⟩

theorem ext_iff {t t' : Written} : t = t' ↔ t.number = t'.number ∧ t.unit = t'.unit := by
  constructor
  · rintro rfl
    exact ⟨rfl, rfl⟩
  · obtain ⟨number, unit, scale, _, hSpelled⟩ := t
    obtain ⟨number', unit', scale', _, hSpelled'⟩ := t'
    rintro ⟨rfl, rfl⟩
    have hScale : some scale = some scale' :=
      (Scale.ofChars?_eq_some_iff.mpr hSpelled).symm.trans (Scale.ofChars?_eq_some_iff.mpr hSpelled')
    cases hScale
    rfl

theorem texts_injective {ts ts' : List Written} (h : ts.flatMap text = ts'.flatMap text) :
    ts = ts' := by
  induction ts generalizing ts' with
  | nil =>
    cases ts' with
    | nil => rfl
    | cons t' ts' => exact absurd h.symm (t'.texts_filled ts')
  | cons t ts ih =>
    cases ts' with
    | nil => exact absurd h (t.texts_filled ts)
    | cons t' ts' =>
      obtain ⟨hNumber, hUnit, hRest⟩ := t.cut ts
      obtain ⟨hNumber', hUnit', hRest'⟩ := t'.cut ts'
      rw [h] at hNumber hUnit hRest
      have hFirst : t = t' :=
        ext_iff.mpr ⟨hNumber.symm.trans hNumber', hUnit.symm.trans hUnit'⟩
      rw [hFirst, ih (hRest.symm.trans hRest')]

end Written

theorem readTerms_eq {cs : List Char} (h : cs ≠ []) :
    readTerms cs =
      (Decimal.readMagnitude (cs.takeWhile isNumberChar)).bind fun number =>
        (Scale.ofChars? ((cs.dropWhile isNumberChar).takeWhile fun c => !isNumberChar c)).bind
          fun scale => (readTerms (behindTerm cs)).map (⟨number, scale⟩ :: ·) := by
  rw [readTerms, dif_neg h]
  simp only [Option.map_eq_bind]
  rfl

theorem readTerms_texts (ts : List Written) :
    readTerms (ts.flatMap Written.text) = some (ts.map Written.term) := by
  induction ts with
  | nil =>
    rw [List.flatMap_nil, readTerms]
    rfl
  | cons t ts ih =>
    obtain ⟨hNumber, hUnit, hRest⟩ := t.cut ts
    have hRead : Decimal.readMagnitude t.number = some (Decimal.literalOf t.number) :=
      (Decimal.readMagnitude_eq_some_iff t.numeral.chars).mpr ⟨t.numeral, rfl⟩
    have hScale : Scale.ofChars? t.unit = some t.scale := Scale.ofChars?_eq_some_iff.mpr t.spelled
    rw [readTerms_eq (t.texts_filled ts), hNumber, hUnit, hRest, hRead, hScale, ih]
    rfl

theorem exists_texts {cs : List Char} {xs : List Term} (h : readTerms cs = some xs) :
    ∃ ts : List Written, ts.flatMap Written.text = cs ∧ ts.map Written.term = xs := by
  -- One step takes a whole term off, so the induction is on the length of what is left.
  induction hLength : cs.length using Nat.strong_induction_on generalizing cs xs with
  | _ n ih =>
    by_cases hNone : cs = []
    · subst hNone
      rw [readTerms] at h
      cases h
      exact ⟨[], rfl, rfl⟩
    · rw [readTerms_eq hNone] at h
      obtain ⟨number, hNumber, h⟩ := Option.bind_eq_some_iff.mp h
      obtain ⟨scale, hScale, h⟩ := Option.bind_eq_some_iff.mp h
      obtain ⟨rest, hRest, rfl⟩ := Option.map_eq_some_iff.mp h
      obtain ⟨ts, hTexts, rfl⟩ := ih _ (hLength ▸ length_behindTerm_lt hNone) hRest rfl
      have hChars : ∀ c ∈ cs.takeWhile isNumberChar, Decimal.isDigit c = true ∨ c = '.' :=
        fun c hc => isNumberChar_iff.mp (List.mem_takeWhile_imp hc)
      obtain ⟨hNumeral, rfl⟩ := (Decimal.readMagnitude_eq_some_iff hChars).mp hNumber
      refine ⟨⟨_, _, scale, hNumeral, Scale.ofChars?_eq_some_iff.mp hScale⟩ :: ts, ?_, rfl⟩
      rw [List.flatMap_cons, hTexts, Written.text, behindTerm, List.append_assoc,
        List.takeWhile_append_dropWhile, List.takeWhile_append_dropWhile]

/-- A row of at least one term with nothing but blanks around it. -/
def Composed (text : String) (ts : List Written) : Prop :=
  ts ≠ [] ∧ ∃ lead trail, (∀ c ∈ lead, Text.isBlank c = true) ∧
    (∀ c ∈ trail, Text.isBlank c = true) ∧ text.toList = lead ++ ts.flatMap Written.text ++ trail

theorem isBlank_of_isNumberChar {c : Char} (h : isNumberChar c = true) :
    Text.isBlank c = false := by
  have hCode : 46 ≤ c.toNat ∧ c.toNat ≤ 57 := by
    rcases isNumberChar_iff.mp h with hDigit | rfl
    · simp only [Decimal.isDigit, Bool.and_eq_true, decide_eq_true_eq, Char.le_def] at hDigit
      have hLower := UInt32.le_iff_toNat_le.mp hDigit.1
      have hUpper := UInt32.le_iff_toNat_le.mp hDigit.2
      exact ⟨Nat.le_trans (by decide) hLower, hUpper⟩
    · decide
  simp only [Text.isBlank, Bool.or_eq_false_iff, Bool.and_eq_false_iff, beq_eq_false_iff_ne,
    decide_eq_false_iff_not]
  omega

theorem Written.not_blank (ts : List Written) :
    ∀ c ∈ ts.flatMap Written.text, Text.isBlank c = false := by
  intro c hc
  obtain ⟨t, _, hc⟩ := List.mem_flatMap.mp hc
  rcases List.mem_append.mp hc with hNumber | hUnit
  · exact isBlank_of_isNumberChar (t.number_chars c hNumber)
  · exact (Scale.spelling_chars _ t.spelled c hUnit).2

theorem Composed.trim {text : String} {ts : List Written} (h : Composed text ts) :
    Text.trim text.toList = ts.flatMap Written.text := by
  obtain ⟨hFilled, lead, trail, hLead, hTrail, hText⟩ := h
  obtain ⟨t, rest, rfl⟩ := List.exists_cons_of_ne_nil hFilled
  rw [hText]
  exact Text.trim_surrounded hLead hTrail (Written.not_blank _)

theorem composed_unique {text : String} {ts ts' : List Written} (h : Composed text ts)
    (h' : Composed text ts') : ts = ts' :=
  Written.texts_injective (h.trim.symm.trans h'.trim)

theorem terms?_eq_some_iff {text : String} {xs : List Term} :
    terms? text = some xs ↔ ∃ ts, Composed text ts ∧ ts.map Written.term = xs := by
  constructor
  · intro h
    obtain ⟨lead, trail, hLead, hTrail, hText⟩ := Text.exists_surrounded text.toList
    unfold terms? at h
    split at h
    · cases h
    · rename_i hFilled
      obtain ⟨ts, hTexts, hTerms⟩ := exists_texts h
      refine ⟨ts, ⟨?_, lead, trail, hLead, hTrail, hTexts ▸ hText⟩, hTerms⟩
      rintro rfl
      exact hFilled hTexts.symm
  · rintro ⟨ts, hComposed, rfl⟩
    obtain ⟨t, rest, rfl⟩ := List.exists_cons_of_ne_nil hComposed.1
    unfold terms?
    rw [hComposed.trim]
    split
    · exact absurd ‹_› (t.texts_filled rest)
    · exact readTerms_texts _

/-- A way to calculate: what a decimal stands for, and how to add and multiply. -/
structure Arithmetic (α : Type) where
  zero : α
  add : α → α → α
  mul : α → α → α
  decimal : Decimal.Literal → α

/-- The milliseconds of a row of terms, each a number times its unit, added from the left. -/
def Arithmetic.total {α : Type} (a : Arithmetic α) (terms : List Term) : α :=
  terms.foldl (fun sum t => a.add sum (a.mul (a.decimal t.number) (a.decimal t.scale.literal)))
    a.zero

def doubles : Arithmetic Float := ⟨0, (· + ·), (· * ·), Decimal.Literal.toFloat⟩

def rationals : Arithmetic ℚ := ⟨0, (· + ·), (· * ·), Decimal.Literal.value⟩

theorem millis_eq_total (terms : List Term) : millis terms = doubles.total terms := by
  simp only [millis, Scale.millis_eq]
  rfl

theorem total_rationals (ts : List Written) :
    rationals.total (ts.map Written.term) = (ts.map Written.millis).sum := by
  -- The terms are added from the left, so the last one is the outermost.
  induction ts using List.reverseRecOn with
  | nil => rfl
  | append_singleton ts t ih =>
    have hTerm : rationals.mul (rationals.decimal t.term.number)
        (rationals.decimal t.term.scale.literal) = t.millis :=
      congrArg (· * t.scale.literal.value) (Decimal.value_literalOf t.number)
    rw [List.map_append, Arithmetic.total, List.foldl_append, ← Arithmetic.total, ih,
      List.map_append, List.sum_append, List.map_singleton, List.map_singleton, List.sum_singleton,
      ← hTerm]
    rfl

/-- A duration text has a value just if it is a row of terms with blanks around it. It is such a row
in one way only, its value is the sum of the terms calculated with doubles, and calculated exactly
that sum is the sum of the numbers times their units. -/
theorem parse?_composed (text : String) :
    (∀ v, parse? text = some v ↔
      ∃ ts, Composed text ts ∧ doubles.total (ts.map Written.term) = v) ∧
    (∀ ts ts', Composed text ts → Composed text ts' → ts = ts') ∧
    ∀ ts, Composed text ts →
      rationals.total (ts.map Written.term) = (ts.map Written.millis).sum := by
  refine ⟨fun v => ?_, fun ts ts' => composed_unique, fun ts _ => total_rationals ts⟩
  rw [parse?, Option.map_eq_some_iff]
  constructor
  · rintro ⟨xs, hTerms, rfl⟩
    obtain ⟨ts, hComposed, rfl⟩ := terms?_eq_some_iff.mp hTerms
    exact ⟨ts, hComposed, (millis_eq_total _).symm⟩
  · rintro ⟨ts, hComposed, rfl⟩
    exact ⟨_, terms?_eq_some_iff.mpr ⟨ts, hComposed, rfl⟩, millis_eq_total _⟩

namespace Written

def minutes : Written where
  number := ['1']
  unit := ['m']
  scale := .minute
  numeral := ⟨by simp [Decimal.isDigit], by decide, '1', by simp, by decide⟩
  spelled := List.mem_singleton_self _

def seconds : Written where
  number := ['2', '.', '5']
  unit := ['s']
  scale := .second
  numeral := ⟨by simp [Decimal.isDigit], by decide, '2', by simp, by decide⟩
  spelled := List.mem_singleton_self _

end Written

theorem parse?_composed_minutes :
    Composed " 1m2.5s" [.minutes, .seconds] ∧ parse? " 1m2.5s" = some 62500 ∧
      rationals.total ([.minutes, .seconds].map Written.term) = 62500 := by
  have hComposed : Composed " 1m2.5s" [.minutes, .seconds] :=
    ⟨List.cons_ne_nil _ _, [' '], [], by simp [Text.isBlank], nofun, by decide⟩
  obtain ⟨hValue, _, hExact⟩ := parse?_composed " 1m2.5s"
  refine ⟨hComposed, (hValue _).mpr ⟨_, hComposed, by decide +kernel⟩, ?_⟩
  rw [hExact _ hComposed]
  decide +kernel

end Duration

end GatewayTelemetry
