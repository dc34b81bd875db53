import GatewayTelemetry.Proofs.Decimal.Numeral

/-! # Rows of digits

A natural number is written as the row of its digits, the highest first and none of them a zero in
front. Zeros behind a row multiply its number by ten each, zeros in front of it change nothing.
-/

namespace GatewayTelemetry.Decimal

def rowValue (ds : List Char) : ℕ := Nat.ofDigits 10 (ds.map digitValue).reverse

structure Digits (ds : List Char) : Prop where
  filled : ds ≠ []
  digits : ∀ c ∈ ds, isDigit c = true

variable {n : ℕ} {ds es : List Char}

theorem Digits.append (h : Digits ds) (hMore : ∀ c ∈ es, isDigit c = true) : Digits (ds ++ es) where
  filled := List.append_ne_nil_of_left_ne_nil h.filled es
  digits := by simpa [or_imp, forall_and] using ⟨h.digits, hMore⟩

theorem isDigit_zeros (k : ℕ) : ∀ c ∈ List.replicate k '0', isDigit c = true := by
  intro c hc
  rw [(List.mem_replicate.mp hc).2]
  decide

theorem rowValue_append (ds es : List Char) :
    rowValue (ds ++ es) = rowValue ds * 10 ^ es.length + rowValue es := by
  simp only [rowValue, List.map_append, List.reverse_append, Nat.ofDigits_append,
    List.length_reverse, List.length_map]
  ring

theorem rowValue_zeros (k : ℕ) : rowValue (List.replicate k '0') = 0 := by
  induction k with
  | zero => rfl
  | succ k ih =>
    have hZero : rowValue ['0'] = 0 := rfl
    rw [List.replicate_succ', rowValue_append, ih, hZero, Nat.zero_mul]

theorem digitChar_spec (h : n < 10) :
    isDigit (digitChar n) = true ∧ digitValue (digitChar n) = n ∧ (digitChar n = '0' → n = 0) := by
  have hAll : ∀ n < 10,
      isDigit (digitChar n) = true ∧ digitValue (digitChar n) = n ∧
        (digitChar n = '0' → n = 0) := by decide
  exact hAll n h

theorem digitChars_of_lt (h : n < 10) : digitChars n = [digitChar n] := by
  rw [digitChars, digitList, dif_pos h, List.map_singleton]

theorem digitChars_of_le (h : 10 ≤ n) :
    digitChars n = digitChars (n / 10) ++ [digitChar (n % 10)] := by
  rw [digitChars, digitList, dif_neg (Nat.not_lt.mpr h), List.map_append]
  rfl

theorem digits_digitChars (n : ℕ) : Digits (digitChars n) := by
  induction n using Nat.strong_induction_on with
  | _ n ih =>
    rcases Nat.lt_or_ge n 10 with hOne | hMore
    · rw [digitChars_of_lt hOne]
      exact ⟨List.cons_ne_nil _ _, by simpa using (digitChar_spec hOne).1⟩
    · rw [digitChars_of_le hMore]
      have hLast : n % 10 < 10 := Nat.mod_lt n (by decide)
      exact (ih (n / 10) (by omega)).append (by simpa using (digitChar_spec hLast).1)

theorem rowValue_digitChars (n : ℕ) : rowValue (digitChars n) = n := by
  have hOne : ∀ d < 10, rowValue [digitChar d] = d := by
    intro d hd
    show digitValue (digitChar d) + 10 * 0 = d
    exact (digitChar_spec hd).2.1
  induction n using Nat.strong_induction_on with
  | _ n ih =>
    rcases Nat.lt_or_ge n 10 with hShort | hMore
    · rw [digitChars_of_lt hShort, hOne n hShort]
    · rw [digitChars_of_le hMore, rowValue_append, ih (n / 10) (by omega),
        hOne _ (Nat.mod_lt n (by decide))]
      show n / 10 * 10 + n % 10 = n
      omega

theorem head?_digitChars (h : 0 < n) : (digitChars n).head? ≠ some '0' := by
  induction n using Nat.strong_induction_on with
  | _ n ih =>
    rcases Nat.lt_or_ge n 10 with hOne | hMore
    · rw [digitChars_of_lt hOne]
      intro hHead
      exact h.ne' ((digitChar_spec hOne).2.2 (Option.some.inj hHead))
    · have hFilled := List.isSome_head?.mpr (digits_digitChars (n / 10)).filled
      rw [digitChars_of_le hMore, List.head?_append, Option.or_of_isSome hFilled]
      exact ih (n / 10) (by omega) (by omega)

theorem pow_length_digitChars (h : 0 < n) : 10 ^ ((digitChars n).length - 1) ≤ n := by
  induction n using Nat.strong_induction_on with
  | _ n ih =>
    rcases Nat.lt_or_ge n 10 with hOne | hMore
    · rw [digitChars_of_lt hOne]
      exact h
    · have hRest := ih (n / 10) (by omega) (by omega)
      have hFilled := List.length_pos_iff.mpr (digits_digitChars (n / 10)).filled
      rw [digitChars_of_le hMore, List.length_append, List.length_singleton, Nat.add_sub_cancel]
      calc 10 ^ (digitChars (n / 10)).length
          = 10 ^ ((digitChars (n / 10)).length - 1) * 10 := by
            rw [← pow_succ, Nat.sub_add_cancel hFilled]
        _ ≤ n / 10 * 10 := Nat.mul_le_mul_right 10 hRest
        _ ≤ n := Nat.div_mul_le_self n 10

end GatewayTelemetry.Decimal
