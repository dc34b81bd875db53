import GatewayTelemetry.Json.Reader
import GatewayTelemetry.Json.Writer
import GatewayTelemetry.Proofs.Decimal.Written

/-! # What a text denotes

The grammar of the format, apart from any way to read or write it: an element is a value with blanks
around it, a text is spelled with escapes or without, and a number is the integer that its digits
make or, if it has a point or an exponent, the double that it is rounded to. The pretty form of a
document denotes it.
-/

namespace GatewayTelemetry.Json

open Decimal (Real Whole isNegative rowValue)
open Binary (RoundsTo)

def Blank (cs : List Char) : Prop := ∀ c ∈ cs, c ∈ [' ', '\n', '\r', '\t']

inductive CodeUnit : List Char → ℕ → Prop
  | row {cs : List Char} {ds : List ℕ}
      (hDigits : List.Forall₂ (fun c d => Draft.hexValue? c = some d) cs ds)
      (hLength : cs.length = 4) : CodeUnit cs (Nat.ofDigits 16 ds.reverse)

def escapes : List (Char × Char) :=
  [('"', '"'), ('\\', '\\'), ('/', '/'), ('n', '\n'), ('r', '\r'), ('t', '\t'), ('b', '\x08'),
    ('f', '\x0c')]

/-- The inside of a quoted text, and the characters it stands for. -/
inductive Spells : List Char → List Char → Prop
  | nil : Spells [] []
  | plain {c : Char} {cs s : List Char} (hQuote : c ≠ '"') (hSlash : c ≠ '\\')
      (hControl : 0x20 ≤ c.toNat) (h : Spells cs s) : Spells (c :: cs) (c :: s)
  | mark {m c : Char} {cs s : List Char} (hMark : escapes.lookup m = some c) (h : Spells cs s) :
      Spells ('\\' :: m :: cs) (c :: s)
  | unit {row cs s : List Char} {c : Char} (hUnit : CodeUnit row c.toNat) (h : Spells cs s) :
      Spells ('\\' :: 'u' :: row ++ cs) (c :: s)
  | pair {high low cs s : List Char} {u v : ℕ} {c : Char} (hHigh : CodeUnit high u)
      (hLow : CodeUnit low v) (hFirst : 0xD800 ≤ u ∧ u < 0xDC00) (hSecond : 0xDC00 ≤ v ∧ v < 0xE000)
      (hChar : c.toNat = 0x10000 + (u - 0xD800) * 0x400 + (v - 0xDC00)) (h : Spells cs s) :
      Spells ('\\' :: 'u' :: high ++ '\\' :: 'u' :: low ++ cs) (c :: s)

inductive IsNumber : List Char → Number → Prop
  | whole {ds : List Char} {n : ℤ} {range : -9223372036854775808 ≤ n ∧ n < 18446744073709551616}
      (h : Whole ds) (hValue : n = rowValue ds) : IsNumber ds (.int n range)
  | negative {ds : List Char} {n : ℤ}
      {range : -9223372036854775808 ≤ n ∧ n < 18446744073709551616} (h : Whole ds)
      (hSome : rowValue ds ≠ 0) (hValue : n = -rowValue ds) : IsNumber ('-' :: ds) (.int n range)
  | real {cs : List Char} {q : ℚ} {x : Float} {finite : x.isFinite = true} (h : Real cs q)
      (hSign : isNegative x = false) (hRounds : RoundsTo q x) : IsNumber cs (.real x finite)
  | negativeReal {cs : List Char} {q : ℚ} {x : Float} {finite : x.isFinite = true} (h : Real cs q)
      (hSign : isNegative x = true) (hRounds : RoundsTo (-q) x) :
      IsNumber ('-' :: cs) (.real x finite)

inductive Key : List Char → String → Prop
  | quoted {before cs after : List Char} {k : String} (hBefore : Blank before)
      (h : Spells cs k.toList) (hAfter : Blank after) :
      Key (before ++ '"' :: cs ++ '"' :: after ++ [':']) k

mutual

inductive Value : List Char → Json → Prop
  | null : Value ['n', 'u', 'l', 'l'] .null
  | yes : Value ['t', 'r', 'u', 'e'] (.bool true)
  | no : Value ['f', 'a', 'l', 's', 'e'] (.bool false)
  | num {cs : List Char} {n : Number} (h : IsNumber cs n) : Value cs (.num n)
  | str {cs : List Char} {s : String} (h : Spells cs s.toList) : Value ('"' :: cs ++ ['"']) (.str s)
  | emptyArr {cs : List Char} (h : Blank cs) : Value ('[' :: cs ++ [']']) (.arr [])
  | arr {cs : List Char} {items : List Json} (h : Elements cs items) :
      Value ('[' :: cs ++ [']']) (.arr items)
  | emptyObj {cs : List Char} (h : Blank cs) : Value ('\x7b' :: cs ++ ['\x7d']) (.obj [])
  | obj {cs : List Char} {fields : List (String × Json)} (h : Members cs fields) :
      Value ('\x7b' :: cs ++ ['\x7d']) (.obj fields)

/-- A value with blanks around it; a whole text is one. -/
inductive Denotes : List Char → Json → Prop
  | padded {before cs after : List Char} {j : Json} (hBefore : Blank before) (h : Value cs j)
      (hAfter : Blank after) : Denotes (before ++ cs ++ after) j

inductive Elements : List Char → List Json → Prop
  | last {cs : List Char} {j : Json} (h : Denotes cs j) : Elements cs [j]
  | more {cs rest : List Char} {j : Json} {items : List Json} (h : Denotes cs j)
      (hRest : Elements rest items) : Elements (cs ++ ',' :: rest) (j :: items)

inductive Members : List Char → List (String × Json) → Prop
  | last {key cs : List Char} {k : String} {j : Json} (hKey : Key key k) (h : Denotes cs j) :
      Members (key ++ cs) [(k, j)]
  | more {key cs rest : List Char} {k : String} {j : Json} {fields : List (String × Json)}
      (hKey : Key key k) (h : Denotes cs j) (hRest : Members rest fields) :
      Members (key ++ cs ++ ',' :: rest) ((k, j) :: fields)

end

theorem blank_nil : Blank [] := nofun

theorem blank_indent (depth : ℕ) : Blank (indent depth).toList := by
  intro c hc
  rw [indent, String.toList_ofList] at hc
  rcases List.mem_cons.mp hc with rfl | hSpace
  · decide
  · rw [(List.mem_replicate.mp hSpace).2]
    decide

theorem Value.denotes {cs : List Char} {j : Json} (h : Value cs j) : Denotes cs j := by
  have hPadded := Denotes.padded blank_nil h blank_nil
  rwa [List.nil_append, List.append_nil] at hPadded

theorem Value.ofText {s : String} {cs : List Char} {j : Json} (hText : s.toList = cs)
    (h : Value cs j) : Value s.toList j := hText ▸ h

theorem hexUnit_of_lt {n : ℕ} (h : n < 32) :
    hexUnit n = ['0', '0', Text.hexDigit (n / 16), Text.hexDigit (n % 16)] := by
  rcases Nat.lt_or_ge n 16 with hOne | hTwo
  · have hDigits : Text.hexDigits n = [Text.hexDigit n] := by rw [Text.hexDigits, dif_pos hOne]
    rw [hexUnit, hDigits, Nat.div_eq_of_lt hOne, Nat.mod_eq_of_lt hOne]
    rfl
  · have hDigits : Text.hexDigits n = [Text.hexDigit (n / 16), Text.hexDigit (n % 16)] := by
      rw [Text.hexDigits, dif_neg (Nat.not_lt.mpr hTwo), Text.hexDigits, dif_pos (by omega)]
      rfl
    rw [hexUnit, hDigits]
    rfl

theorem codeUnit_hexUnit {n : ℕ} (h : n < 32) : CodeUnit (hexUnit n) n := by
  have hDigit : ∀ d < 16, Draft.hexValue? (Text.hexDigit d) = some d := by decide
  have hZero : Draft.hexValue? '0' = some 0 := by decide
  have hHigh := hDigit (n / 16) (by omega)
  have hLow := hDigit (n % 16) (by omega)
  have hUnit := CodeUnit.row (.cons hZero (.cons hZero (.cons hHigh (.cons hLow .nil)))) rfl
  have hValue : Nat.ofDigits 16 [0, 0, n / 16, n % 16].reverse = n := by
    show n % 16 + 16 * (n / 16 + 16 * (0 + 16 * (0 + 16 * 0))) = n
    omega
  rw [hValue] at hUnit
  rwa [hexUnit_of_lt h]

theorem Spells.escapeChar {cs s : List Char} (h : Spells cs s) (c : Char) :
    Spells (Json.escapeChar c ++ cs) (c :: s) := by
  have hMark : ∀ m, escapes.lookup m = some c → Spells (['\\', m] ++ cs) (c :: s) :=
    fun m hFound => .mark hFound h
  unfold Json.escapeChar
  split_ifs with hQuote hSlash hLine hReturn hTab hBack hFeed hControl
  · exact hMark '"' (by subst hQuote; rfl)
  · exact hMark '\\' (by subst hSlash; rfl)
  · exact hMark 'n' (hLine ▸ rfl)
  · exact hMark 'r' (hReturn ▸ rfl)
  · exact hMark 't' (hTab ▸ rfl)
  · exact hMark 'b' (hBack ▸ rfl)
  · exact hMark 'f' (hFeed ▸ rfl)
  · exact .unit (codeUnit_hexUnit hControl) h
  · exact .plain hQuote hSlash (not_lt.mp hControl) h

theorem spells_escaped (s : List Char) : Spells (s.flatMap escapeChar) s := by
  induction s with
  | nil => exact .nil
  | cons c s ih => exact ih.escapeChar c

theorem toList_writeText (s : String) :
    (writeText s).toList = '"' :: s.toList.flatMap escapeChar ++ ['"'] := String.toList_ofList

theorem value_writeText (s : String) : Value (writeText s).toList (.str s) := by
  rw [toList_writeText]
  exact .str (spells_escaped s.toList)

theorem toDigits_eq (n : ℕ) : Nat.toDigits 10 n = Decimal.digitChars n := by
  have hDigit : ∀ d < 10, d.digitChar = Decimal.digitChar d := by decide
  induction n using Nat.strong_induction_on with
  | _ n ih =>
    rcases Nat.lt_or_ge n 10 with hOne | hMore
    · rw [Nat.toDigits_of_lt_base hOne, Decimal.digitChars_of_lt hOne, hDigit n hOne]
    · rw [Nat.toDigits_of_base_le (by decide) hMore, Decimal.digitChars_of_le hMore,
        ih (n / 10) (by omega), hDigit _ (Nat.mod_lt n (by decide))]

theorem isNumber_write (n : Number) : IsNumber (writeNumber n).toList n := by
  cases n with
  | int n range =>
    cases n with
    | ofNat m =>
      have hText : (writeNumber (.int (.ofNat m) range)).toList = Decimal.digitChars m :=
        String.toList_ofList.trans (toDigits_eq m)
      rw [hText]
      exact .whole (Decimal.whole_digitChars m)
        (congrArg Int.ofNat (Decimal.rowValue_digitChars m).symm)
    | negSucc m =>
      have hText : (writeNumber (.int (.negSucc m) range)).toList =
          '-' :: Decimal.digitChars (m + 1) := by
        rw [← toDigits_eq]
        exact (String.toList_append (s := "-")).trans (congrArg ('-' :: ·) String.toList_ofList)
      rw [hText]
      refine .negative (Decimal.whole_digitChars (m + 1)) ?_ ?_
      · rw [Decimal.rowValue_digitChars]
        exact Nat.succ_ne_zero m
      · rw [Decimal.rowValue_digitChars]
        rfl
  | real x finite =>
    obtain ⟨cs, q, hReal, hRounds, hText⟩ := Decimal.write_spec .message finite
    rw [show (writeNumber (.real x finite)).toList = _ from hText]
    cases hSign : isNegative x with
    | true =>
      rw [hSign] at hRounds
      exact .negativeReal hReal hSign hRounds
    | false =>
      rw [hSign] at hRounds
      exact .real hReal hSign hRounds

theorem elements_block {depth : ℕ} {first : String} {j : Json} {parts : List String}
    {items : List Json} (hFirst : Value first.toList j)
    (hParts : List.Forall₂ (fun p j => Value p.toList j) parts items) :
    Elements (block depth (first :: parts)).toList (j :: items) := by
  have hBefore := blank_indent (depth + 1)
  have hAfter := blank_indent depth
  simp only [block, String.toList_append, String.toList_intercalate]
  induction hParts generalizing first j with
  | nil =>
    rw [List.map_singleton, List.intercalate_singleton]
    exact .last (.padded hBefore hFirst hAfter)
  | cons hNext _ ih =>
    have hElement := Denotes.padded hBefore hFirst blank_nil
    have hRest := Elements.more hElement (ih hNext)
    simpa [List.intercalate_cons_cons] using hRest

def Pair (p : String) (f : String × Json) : Prop :=
  ∃ q : String, p = writeText f.1 ++ ": " ++ q ∧ Value q.toList f.2

theorem key_writeText {before : List Char} (hBefore : Blank before) (k : String) :
    Key (before ++ (writeText k).toList ++ [':']) k := by
  have hKey := Key.quoted hBefore (spells_escaped k.toList) blank_nil
  rw [toList_writeText]
  simpa using hKey

theorem members_block {depth : ℕ} {first : String} {f : String × Json} {parts : List String}
    {fields : List (String × Json)} (hFirst : Pair first f)
    (hParts : List.Forall₂ Pair parts fields) :
    Members (block depth (first :: parts)).toList (f :: fields) := by
  have hBefore := blank_indent (depth + 1)
  have hAfter := blank_indent depth
  have hSpace : Blank [' '] := by
    intro c hc
    rw [List.mem_singleton.mp hc]
    decide
  simp only [block, String.toList_append, String.toList_intercalate]
  induction hParts generalizing first f with
  | nil =>
    obtain ⟨q, rfl, hValue⟩ := hFirst
    have hLast := Members.last (key_writeText hBefore f.1) (.padded hSpace hValue hAfter)
    simpa using hLast
  | cons hNext _ ih =>
    obtain ⟨q, rfl, hValue⟩ := hFirst
    have hElement := Denotes.padded hSpace hValue blank_nil
    have hMore := Members.more (key_writeText hBefore f.1) hElement (ih hNext)
    simpa [List.intercalate_cons_cons] using hMore

theorem toList_bracketed (s : String) : (bracketed s).toList = '[' :: s.toList ++ [']'] := by
  rw [bracketed, String.toList_append, String.toList_append]
  rfl

theorem toList_braced (s : String) : (braced s).toList = '\x7b' :: s.toList ++ ['\x7d'] := by
  rw [braced, String.toList_append, String.toList_append]
  rfl

mutual

theorem value_prettyAt (depth : ℕ) (j : Json) : Value (prettyAt depth j).toList j := by
  match j with
  | .null => exact .ofText String.toList_ofList .null
  | .bool true => exact .ofText String.toList_ofList .yes
  | .bool false => exact .ofText String.toList_ofList .no
  | .num n => exact .num (isNumber_write n)
  | .str s => exact value_writeText s
  | .arr [] => exact .ofText String.toList_ofList (.emptyArr blank_nil)
  | .arr (j :: rest) =>
    rw [prettyAt, toList_bracketed]
    exact .arr (elements_block (value_prettyAt (depth + 1) j) (values_prettyItems (depth + 1) rest))
  | .obj [] => exact .ofText (toList_braced "") (.emptyObj blank_nil)
  | .obj ((k, v) :: rest) =>
    rw [prettyAt, toList_braced]
    have hFirst : Pair (writeText k ++ ": " ++ prettyAt (depth + 1) v) (k, v) :=
      ⟨_, rfl, value_prettyAt (depth + 1) v⟩
    exact .obj (members_block hFirst (pairs_prettyFields (depth + 1) rest))

theorem values_prettyItems (depth : ℕ) (items : List Json) :
    List.Forall₂ (fun p j => Value p.toList j) (prettyItems depth items) items := by
  match items with
  | [] => exact .nil
  | j :: rest => exact .cons (value_prettyAt depth j) (values_prettyItems depth rest)

theorem pairs_prettyFields (depth : ℕ) (fields : List (String × Json)) :
    List.Forall₂ Pair (prettyFields depth fields) fields := by
  match fields with
  | [] => exact .nil
  | (k, v) :: rest =>
    exact .cons ⟨_, rfl, value_prettyAt depth v⟩ (pairs_prettyFields depth rest)

end

theorem denotes_pretty (j : Json) : Denotes j.pretty.toList j := (value_prettyAt 0 j).denotes

end GatewayTelemetry.Json
