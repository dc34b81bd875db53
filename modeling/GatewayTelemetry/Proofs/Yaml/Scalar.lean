import GatewayTelemetry.Proofs.Decimal.Numeral
import GatewayTelemetry.Proofs.Outcome
import GatewayTelemetry.Yaml.Typed

/-! # What scalars denote

Numbers, texts and flags in the words of the format, apart from any way to read them. A word is read
off a scalar just when the scalar denotes a number within the range of words; a number beyond it is
not cut down to one.
-/

namespace GatewayTelemetry.Yaml

inductive Digits (base : ℕ) : List Char → ℕ → Prop
  | row {cs : List Char} {ds : List ℕ}
      (hDigits : List.Forall₂ (fun c d => hexDigit? c = some d) cs ds)
      (hBase : ∀ d ∈ ds, d < base) : Digits base cs (Nat.ofDigits base ds.reverse)

def baseMarks : List (Char × ℕ) := [('x', 16), ('o', 8), ('b', 2)]

inductive Unsigned : List Char → ℕ → Prop
  | marked {mark : Char} {base n : ℕ} {cs : List Char} (hMark : baseMarks.lookup mark = some base)
      (hSome : cs ≠ []) (hDigits : Digits base cs n) : Unsigned ('0' :: mark :: cs) n
  | decimal {n : ℕ} {cs : List Char} (hSome : cs ≠ []) (hZero : cs.head? = some '0' → cs = ['0'])
      (hDigits : Digits 10 cs n) : Unsigned cs n

inductive IsNumber : List Char → ℕ → Prop
  | bare {n : ℕ} {cs : List Char} (h : Unsigned cs n) : IsNumber cs n
  | plus {n : ℕ} {cs : List Char} (h : Unsigned cs n) : IsNumber ('+' :: cs) n

variable {base n : ℕ} {cs text : List Char}

theorem natOfBase_eq_some_iff : natOfBase base cs = some n ↔ Digits base cs n := by
  simp only [natOfBase, Option.bind_eq_bind, Option.bind_eq_some_iff, mapM_eq_some_iff]
  constructor
  · rintro ⟨ds, hDigits, h⟩
    split at h
    · rename_i hBase
      cases h
      rw [Decimal.foldl_eq_ofDigits]
      exact .row hDigits (by simpa using hBase)
    · cases h
  · rintro ⟨hDigits, hBase⟩
    refine ⟨_, hDigits, ?_⟩
    rw [if_pos (by simpa using hBase), Decimal.foldl_eq_ofDigits]

theorem unsigned_marked_iff {mark : Char} (hMark : baseMarks.lookup mark = some base)
    (hSome : cs ≠ []) : Unsigned ('0' :: mark :: cs) n ↔ Digits base cs n := by
  constructor
  · rintro (⟨hOther, _, hDigits⟩ | ⟨_, hZero, _⟩)
    · rwa [Option.some.inj (hMark.symm.trans hOther)]
    · cases hZero rfl
  · exact .marked hMark hSome

theorem not_unsigned_zero {mark : Char} {rest : List Char}
    (h : baseMarks.lookup mark = none ∨ rest = []) : ¬ Unsigned ('0' :: mark :: rest) n := by
  rintro (⟨hMark, hSome, _⟩ | ⟨_, hZero, _⟩)
  · rcases h with hNone | hNil
    · cases hNone.symm.trans hMark
    · exact hSome hNil
  · cases hZero rfl

theorem unsigned_decimal_iff (hSome : cs ≠ []) (hZero : cs.head? = some '0' → cs = ['0']) :
    Unsigned cs n ↔ Digits 10 cs n := by
  constructor
  · rintro (⟨_, _, _⟩ | ⟨_, _, hDigits⟩)
    · cases hZero rfl
    · exact hDigits
  · exact .decimal hSome hZero

theorem natOf?_eq_some_iff : natOf? cs = some n ↔ Unsigned cs n := by
  fun_cases natOf? cs with
  | case1 =>
    refine ⟨nofun, ?_⟩
    rintro ⟨⟩
    contradiction
  | case2 d rest =>
    rw [natOfBase_eq_some_iff, unsigned_marked_iff rfl (List.cons_ne_nil d rest)]
  | case3 d rest =>
    rw [natOfBase_eq_some_iff, unsigned_marked_iff rfl (List.cons_ne_nil d rest)]
  | case4 d rest =>
    rw [natOfBase_eq_some_iff, unsigned_marked_iff rfl (List.cons_ne_nil d rest)]
  | case5 mark rest hHex hOctal hBinary =>
    -- No mark behind the zero, or a mark with nothing behind it.
    have hMark : baseMarks.lookup mark = none ∨ rest = [] := by
      cases rest with
      | nil => exact .inr rfl
      | cons d rest =>
        have hOther : mark ≠ 'x' ∧ mark ≠ 'o' ∧ mark ≠ 'b' :=
          ⟨fun h => hHex d rest h rfl, fun h => hOctal d rest h rfl, fun h => hBinary d rest h rfl⟩
        exact .inl (List.lookup_eq_none_iff.mpr (by simpa [baseMarks] using hOther))
    exact ⟨nofun, fun h => absurd h (not_unsigned_zero hMark)⟩
  | case6 ds hSome _ _ _ hLong =>
    rw [natOfBase_eq_some_iff, unsigned_decimal_iff hSome]
    intro hZero
    obtain ⟨rest, rfl⟩ := List.head?_eq_some_iff.mp hZero
    cases rest with
    | nil => rfl
    | cons c rest => exact absurd rfl (hLong c rest)

theorem not_unsigned_plus : ¬ Unsigned ('+' :: cs) n := by
  rintro (_ | ⟨_, _, hDigits⟩)
  obtain ⟨_ | ⟨hPlus, _⟩, _⟩ := hDigits
  have hNone : hexDigit? '+' = none := by decide
  cases hNone.symm.trans hPlus

theorem natOf?_dropPlus : natOf? (Decimal.dropPlus text) = some n ↔ IsNumber text n := by
  rw [natOf?_eq_some_iff, Decimal.dropPlus.eq_def]
  split
  · refine ⟨.plus, ?_⟩
    rintro (h | h)
    · exact absurd h not_unsigned_plus
    · exact h
  · rename_i hPlus
    refine ⟨.bare, ?_⟩
    rintro (h | h)
    · exact h
    · exact absurd rfl (hPlus _)

theorem wordOf?_eq_some_iff {w : UInt64} : wordOf? text = some w ↔ IsNumber text w.toNat := by
  simp only [wordOf?, Option.bind_eq_some_iff, natOf?_dropPlus]
  constructor
  · rintro ⟨n, hNumber, h⟩
    split at h
    · rename_i hRange
      cases h
      rwa [Nat.toUInt64_eq, UInt64.toNat_ofNat_of_lt' hRange]
    · cases h
  · intro hNumber
    refine ⟨w.toNat, hNumber, ?_⟩
    rw [if_pos w.toNat_lt_size, Nat.toUInt64_eq, UInt64.ofNat_toNat]

inductive IsFlag : String → Bool → Prop
  | yes {text : String} (h : text ∈ ["true", "True", "TRUE"]) : IsFlag text true
  | no {text : String} (h : text ∈ ["false", "False", "FALSE"]) : IsFlag text false

theorem flagOf?_eq_some_iff {text : String} {b : Bool} : flagOf? text = some b ↔ IsFlag text b := by
  constructor
  · intro h
    unfold flagOf? at h
    split at h
    · rename_i hText
      cases h
      simp only [Bool.or_eq_true, decide_eq_true_eq, or_assoc] at hText
      exact .yes (by simpa using hText)
    · split at h
      · rename_i hText
        cases h
        simp only [Bool.or_eq_true, decide_eq_true_eq, or_assoc] at hText
        exact .no (by simpa using hText)
      · cases h
  · rintro (h | h)
    · simp only [List.mem_cons, List.not_mem_nil, or_false] at h
      rcases h with rfl | rfl | rfl <;> decide
    · simp only [List.mem_cons, List.not_mem_nil, or_false] at h
      rcases h with rfl | rfl | rfl <;> decide

namespace Node

/-- A scalar whose text may denote a value of a type: a plain one, or a literal block with the tag
of the type. -/
inductive Bare (type : String) : Node → String → Prop
  | plain (tag : Option Octets) (text : String) : Bare type (.scalar .plain tag text) text
  | tagged (text : String) : Bare type (.scalar .literal (standardTag type) text) text

inductive DenotesNumber : Node → ℕ → Prop
  | scalar {node : Node} {text : String} {n : ℕ} (hBare : Bare "int" node text)
      (h : IsNumber text.toList n) : DenotesNumber node n

inductive DenotesFlag : Node → Bool → Prop
  | scalar {node : Node} {text : String} {b : Bool} (hBare : Bare "bool" node text)
      (h : IsFlag text b) : DenotesFlag node b

inductive DenotesText : Node → String → Prop
  | scalar (style : Style) (tag : Option Octets) (text : String) :
      DenotesText (.scalar style tag text) text

variable {node : Node} {text : String}

theorem bare?_eq_some_iff {type : String} : node.bare? type = some text ↔ Bare type node text := by
  constructor
  · intro h
    unfold bare? at h
    split at h
    · cases h
      exact .plain _ _
    · split at h
      · cases h
        rename_i hTag
        rw [hTag]
        exact .tagged _
      · cases h
    · cases h
  · rintro (_ | _)
    · rfl
    · exact if_pos rfl

theorem word?_eq_some_iff {w : UInt64} : node.word? = some w ↔ DenotesNumber node w.toNat := by
  simp only [word?, Option.bind_eq_some_iff, bare?_eq_some_iff, wordOf?_eq_some_iff]
  exact ⟨fun ⟨_, hBare, h⟩ => ⟨hBare, h⟩, fun ⟨hBare, h⟩ => ⟨_, hBare, h⟩⟩

theorem flag?_eq_some_iff {b : Bool} : node.flag? = some b ↔ DenotesFlag node b := by
  simp only [flag?, Option.bind_eq_some_iff, bare?_eq_some_iff, flagOf?_eq_some_iff]
  exact ⟨fun ⟨_, hBare, h⟩ => ⟨hBare, h⟩, fun ⟨hBare, h⟩ => ⟨_, hBare, h⟩⟩

theorem text?_eq_some_iff : node.text? = some text ↔ DenotesText node text := by
  constructor
  · intro h
    unfold text? at h
    split at h
    · cases h
      exact .scalar _ _ _
    · cases h
  · rintro ⟨⟩
    rfl

end Node

end GatewayTelemetry.Yaml
