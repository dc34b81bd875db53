import Mathlib.Data.List.Forall2

/-! # Outcomes that are results

A procedure gives a result just when each of its parts does.
-/

namespace GatewayTelemetry

variable {ε α β : Type}

theorem pure_eq_ok_iff {a b : α} : (pure a : Except ε α) = .ok b ↔ a = b :=
  ⟨Except.ok.inj, congrArg Except.ok⟩

theorem bind_eq_ok_iff {m : Except ε α} {f : α → Except ε β} {b : β} :
    (m >>= f) = .ok b ↔ ∃ a, m = .ok a ∧ f a = .ok b := by
  cases m with
  | error e => exact ⟨nofun, fun ⟨_, hFirst, _⟩ => nomatch hFirst⟩
  | ok a => exact ⟨fun h => ⟨a, rfl, h⟩, fun ⟨_, hFirst, h⟩ => by cases hFirst; exact h⟩

theorem check_bind_eq_ok_iff {check : Except ε Unit} {f : Unit → Except ε β} {b : β} :
    (check >>= f) = .ok b ↔ check = .ok () ∧ f () = .ok b := by
  rw [bind_eq_ok_iff]
  exact ⟨fun ⟨_, h⟩ => h, fun h => ⟨(), h⟩⟩

theorem map_eq_ok_iff {m : Except ε α} {f : α → β} {b : β} :
    m.map f = .ok b ↔ ∃ a, m = .ok a ∧ f a = b := by
  cases m <;> simp [Except.map]

theorem mapError_eq_ok_iff {δ : Type} {m : Except ε α} {f : ε → δ} {a : α} :
    m.mapError f = .ok a ↔ m = .ok a := by
  cases m with
  | error e => exact ⟨nofun, nofun⟩
  | ok b =>
    constructor
    · exact fun h => congrArg Except.ok (Except.ok.inj h)
    · exact fun h => congrArg Except.ok (Except.ok.inj h)

theorem toOption_eq_some_iff {m : Except ε α} {a : α} : m.toOption = some a ↔ m = .ok a := by
  cases m <;> simp [Except.toOption]

theorem mapM_eq_some_iff {read : α → Option β} {items : List α} {found : List β} :
    items.mapM read = some found ↔ List.Forall₂ (fun a b => read a = some b) items found := by
  induction items generalizing found with
  | nil => simp [eq_comm]
  | cons a rest ih =>
    simp only [List.mapM_cons, Option.bind_eq_bind, Option.bind_eq_some_iff, ih,
      List.forall₂_cons_left_iff]
    constructor
    · rintro ⟨b, hFirst, bs, hRest, hFound⟩
      exact ⟨b, bs, hFirst, hRest, (Option.some.inj hFound).symm⟩
    · rintro ⟨b, bs, hFirst, hRest, rfl⟩
      exact ⟨b, hFirst, bs, hRest, rfl⟩

theorem mapM_eq_some_iff_filterMap {read : α → Option β} {items : List α} {found : List β} :
    items.mapM read = some found ↔
      (∀ a ∈ items, (read a).isSome = true) ∧ items.filterMap read = found := by
  induction items generalizing found with
  | nil => simp
  | cons a rest ih =>
    rw [List.mapM_cons, List.forall_mem_cons]
    cases hFirst : read a with
    | none => simp
    | some b =>
      simp only [Option.bind_eq_bind, Option.bind_some, Option.bind_eq_some_iff, ih,
        Option.isSome_some, true_and, List.filterMap_cons_some hFirst]
      constructor
      · rintro ⟨_, ⟨hRest, rfl⟩, ⟨⟩⟩
        exact ⟨hRest, rfl⟩
      · rintro ⟨hRest, rfl⟩
        exact ⟨_, ⟨hRest, rfl⟩, rfl⟩

end GatewayTelemetry
