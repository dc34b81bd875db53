import GatewayTelemetry.Text.Blank
import Mathlib.Data.List.TakeWhile

/-! # Texts cut where a class of characters ends

A row of characters of one class ends at the first character that is not of it. So a text is its
trimmed text between two rows of blanks, and trimming leaves a text without blanks as it stands
between such rows.
-/

namespace GatewayTelemetry

theorem List.span_append {α : Type} {p : α → Bool} {xs ys : List α}
    (hFirst : ∀ x ∈ xs, p x = true) (hNext : ∀ y ∈ ys.head?, p y = false) :
    (xs ++ ys).takeWhile p = xs ∧ (xs ++ ys).dropWhile p = ys := by
  rw [List.takeWhile_append_of_pos hFirst, List.dropWhile_append_of_pos hFirst]
  cases ys with
  | nil => exact ⟨List.append_nil xs, rfl⟩
  | cons y ys =>
    have hStop : ¬ p y = true := by simp [hNext y rfl]
    rw [List.takeWhile_cons_of_neg hStop, List.dropWhile_cons_of_neg hStop]
    exact ⟨List.append_nil xs, rfl⟩

namespace Text

variable {lead body trail cs : List Char}

theorem trim_surrounded (hLead : ∀ c ∈ lead, isBlank c = true)
    (hTrail : ∀ c ∈ trail, isBlank c = true) (hBody : ∀ c ∈ body, isBlank c = false) :
    trim (lead ++ body ++ trail) = body := by
  cases body with
  | nil =>
    have hBlank : ∀ c ∈ lead ++ [] ++ trail, isBlank c = true := by
      intro c hc
      rw [List.append_nil] at hc
      exact (List.mem_append.mp hc).elim (hLead c) (hTrail c)
    rw [trim, trimStart, List.dropWhile_eq_nil_iff.mpr hBlank]
    rfl
  | cons c body =>
    have hStart : trimStart (lead ++ c :: body ++ trail) = c :: body ++ trail := by
      rw [List.append_assoc]
      refine (List.span_append hLead ?_).2
      rintro _ ⟨⟩
      exact hBody c List.mem_cons_self
    have hEnd : (c :: body ++ trail).reverse.dropWhile isBlank = (c :: body).reverse := by
      rw [List.reverse_append]
      refine (List.span_append ?_ ?_).2
      · exact fun c hc => hTrail c (List.mem_reverse.mp hc)
      · exact fun c hc => hBody c (List.mem_reverse.mp (List.mem_of_mem_head? hc))
    rw [trim, hStart, trimEnd, hEnd, List.reverse_reverse]

theorem trim_of_not_blank (h : ∀ c ∈ cs, isBlank c = false) : trim cs = cs := by
  have hTrim : trim ([] ++ cs ++ []) = cs := trim_surrounded nofun nofun h
  rwa [List.nil_append, List.append_nil] at hTrim

theorem exists_surrounded (cs : List Char) :
    ∃ lead trail, (∀ c ∈ lead, isBlank c = true) ∧ (∀ c ∈ trail, isBlank c = true) ∧
      cs = lead ++ trim cs ++ trail := by
  refine ⟨cs.takeWhile isBlank, ((trimStart cs).reverse.takeWhile isBlank).reverse,
    fun c hc => List.mem_takeWhile_imp hc,
    fun c hc => List.mem_takeWhile_imp (List.mem_reverse.mp hc), ?_⟩
  rw [trim, trimEnd, List.append_assoc, ← List.reverse_append, List.takeWhile_append_dropWhile,
    List.reverse_reverse, trimStart, List.takeWhile_append_dropWhile]

end Text

end GatewayTelemetry
