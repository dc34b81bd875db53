import GatewayTelemetry.Proofs.Decimal.Finite
import GatewayTelemetry.Proofs.Outcome
import GatewayTelemetry.Schema.Layout

/-! # What values denote

A meaning tells which values stand for which things, in the words of the format and apart from any
way to read them. A decoder reads a meaning when it accepts exactly the values that stand for
something, each as the thing it stands for.
-/

namespace GatewayTelemetry

/-- Which values stand for which things. -/
abbrev Meaning (α : Type) := Json → α → Prop

/-- The decoder accepts what stands for something, as that, and nothing else. -/
def Decoder.Reads {α : Type} (d : Decoder α) (r : Meaning α) : Prop :=
  ∀ j a, d j = .ok a ↔ r j a

theorem Decoder.Reads.unique {α : Type} {d : Decoder α} {r : Meaning α} (h : d.Reads r)
    {j : Json} {a b : α} (ha : r j a) (hb : r j b) : a = b :=
  Except.ok.inj (((h j a).mpr ha).symm.trans ((h j b).mpr hb))

namespace Meaning

variable {α β : Type}

def text : Meaning String := fun j s => j = .str s

inductive int64 : Json → Int64 → Prop
  | integer (n : Int64) (range) : int64 (.num (.int n.toInt range)) n

inductive uint64 : Json → UInt64 → Prop
  | integer (n : UInt64) (range) : uint64 (.num (.int n.toNat range)) n

/-- Any number; an integer stands for the double next to it. -/
inductive float : Json → Float → Prop
  | integer (n : Int) (range) : float (.num (.int n range)) (Float.ofInt n)
  | double (x : Float) (finite) : float (.num (.real x finite)) x

inductive pair (first : Meaning α) (second : Meaning β) : Json → α × β → Prop
  | items {x y : Json} {a : α} {b : β} (hFirst : first x a) (hSecond : second y b) :
      pair first second (.arr [x, y]) (a, b)

inductive list (item : Meaning α) : Json → List α → Prop
  | items {js : List Json} {l : List α} (h : List.Forall₂ item js l) : list item (.arr js) l

inductive nullable (value : Meaning α) : Json → Option α → Prop
  | null : nullable value .null none
  | given {j : Json} {a : α} (hNull : j ≠ .null) (h : value j a) : nullable value j (some a)

theorem float.isFinite {j : Json} {x : Float} (h : float j x) : x.isFinite = true := by
  cases h with
  | integer n range => exact Binary.isFinite_ofInt range.1 range.2
  | double x finite => exact finite

theorem list.forall {item : Meaning α} {p : α → Prop} (hItem : ∀ j a, item j a → p a) {j : Json}
    {l : List α} (h : list item j l) : ∀ a ∈ l, p a := by
  obtain ⟨h⟩ := h
  induction h with
  | nil => exact nofun
  | cons hHead _ ih =>
    intro a ha
    rcases List.mem_cons.mp ha with rfl | ha
    · exact hItem _ _ hHead
    · exact ih a ha

end Meaning

namespace Decoder

variable {α β : Type}

theorem bounded_eq_ok_iff {word : String} {low high n : Int} {j : Json} :
    bounded word low high j = .ok n ↔
      (low ≤ n ∧ n < high) ∧ ∃ range, j = .num (.int n range) := by
  unfold bounded
  split
  · rename_i m range
    constructor
    · intro h
      split at h
      · cases h
        exact ⟨‹_›, range, rfl⟩
      · cases h
    · rintro ⟨hBounds, _, hSame⟩
      cases hSame
      rw [if_pos hBounds]
  · rename_i hOther
    constructor
    · exact nofun
    · rintro ⟨_, range, rfl⟩
      exact absurd rfl (hOther n range)

theorem text_reads : Reads text Meaning.text := by
  intro j s
  cases j <;> simp [text, Meaning.text]

theorem int64_reads : Reads int64 Meaning.int64 := by
  intro j n
  rw [int64, map_eq_ok_iff]
  constructor
  · rintro ⟨m, hBounded, rfl⟩
    obtain ⟨⟨hLow, hHigh⟩, range, rfl⟩ := bounded_eq_ok_iff.mp hBounded
    have hSame : (Int64.ofInt m).toInt = m := Int64.toInt_ofInt_of_le hLow hHigh
    have h := Meaning.int64.integer (Int64.ofInt m) (hSame.symm ▸ range)
    simpa only [hSame] using h
  · rintro ⟨n, range⟩
    exact ⟨n.toInt, bounded_eq_ok_iff.mpr ⟨⟨n.le_toInt, n.toInt_lt⟩, range, rfl⟩, n.ofInt_toInt⟩

theorem uint64_reads : Reads uint64 Meaning.uint64 := by
  intro j n
  rw [uint64, map_eq_ok_iff]
  constructor
  · rintro ⟨m, hBounded, rfl⟩
    obtain ⟨⟨hLow, hHigh⟩, range, rfl⟩ := bounded_eq_ok_iff.mp hBounded
    have hWord : m.toNat < UInt64.size := by omega
    have hSame : (m.toNat.toUInt64.toNat : Int) = m := by
      rw [Nat.toUInt64_eq, UInt64.toNat_ofNat_of_lt' hWord]
      exact Int.toNat_of_nonneg hLow
    have h := Meaning.uint64.integer m.toNat.toUInt64 (hSame.symm ▸ range)
    simpa only [hSame] using h
  · rintro ⟨n, range⟩
    have hWord : (0 : Int) ≤ n.toNat ∧ (n.toNat : Int) < UInt64.size := by
      have hLess := n.toNat_lt
      simp only [UInt64.size]
      omega
    exact ⟨n.toNat, bounded_eq_ok_iff.mpr ⟨hWord, range, rfl⟩, by simp⟩

theorem float_reads : Reads float Meaning.float := by
  intro j x
  constructor
  · intro h
    unfold float at h
    split at h
    · cases h
      exact .integer _ _
    · cases h
      exact .double _ _
    · cases h
  · rintro (⟨n, range⟩ | ⟨x, finite⟩) <;> rfl

theorem Reads.pair {d : Decoder α} {e : Decoder β} {r : Meaning α} {s : Meaning β}
    (hFirst : d.Reads r) (hSecond : e.Reads s) :
    Reads (Decoder.pair d e) (Meaning.pair r s) := by
  intro j p
  constructor
  · intro h
    unfold Decoder.pair at h
    split at h
    · split at h
      · cases h
      · rename_i x rest
        obtain ⟨a, ha, hRest⟩ := bind_eq_ok_iff.mp h
        split at hRest
        · cases hRest
        · rename_i y more
          obtain ⟨b, hb, hDone⟩ := bind_eq_ok_iff.mp hRest
          split at hDone
          · rename_i hNone
            cases hDone
            rw [List.isEmpty_iff.mp hNone]
            exact .items ((hFirst x a).mp ha) ((hSecond y b).mp hb)
          · cases hDone
    · cases h
  · rintro @⟨x, y, a, b, ha, hb⟩
    simp [Decoder.pair, (hFirst x a).mpr ha, (hSecond y b).mpr hb, bind, Except.bind]

theorem mapM_eq_ok_iff {d : Decoder α} {r : Meaning α} (h : d.Reads r) (js : List Json)
    (l : List α) : js.mapM d = .ok l ↔ List.Forall₂ r js l := by
  induction js generalizing l with
  | nil => simp [pure, Except.pure, eq_comm]
  | cons j rest ih =>
    rw [List.mapM_cons, bind_eq_ok_iff, List.forall₂_cons_left_iff]
    constructor
    · rintro ⟨a, ha, hRest⟩
      obtain ⟨as, hRest, hDone⟩ := bind_eq_ok_iff.mp hRest
      exact ⟨a, as, (h j a).mp ha, (ih as).mp hRest, (Except.ok.inj hDone).symm⟩
    · rintro ⟨a, as, ha, hRest, rfl⟩
      exact ⟨a, (h j a).mpr ha, bind_eq_ok_iff.mpr ⟨as, (ih as).mpr hRest, rfl⟩⟩

theorem Reads.list {d : Decoder α} {r : Meaning α} (h : d.Reads r) :
    Reads (Decoder.list d) (Meaning.list r) := by
  intro j l
  constructor
  · intro hRead
    unfold Decoder.list at hRead
    split at hRead
    · exact .items ((mapM_eq_ok_iff h _ l).mp hRead)
    · cases hRead
  · rintro @⟨js, l, hItems⟩
    exact (mapM_eq_ok_iff h js l).mpr hItems

theorem Reads.nullable {d : Decoder α} {r : Meaning α} (h : d.Reads r) :
    Reads (Decoder.nullable d) (Meaning.nullable r) := by
  intro j o
  constructor
  · intro hRead
    unfold Decoder.nullable at hRead
    split at hRead
    · cases hRead
      exact .null
    · rename_i hNull
      obtain ⟨a, ha, rfl⟩ := map_eq_ok_iff.mp hRead
      exact .given hNull ((h j a).mp ha)
  · intro hDenotes
    cases hDenotes with
    | null => rfl
    | @given _ a hNull ha =>
      have hRead : Decoder.nullable d j = (d j).map some := by
        unfold Decoder.nullable
        split
        · exact absurd rfl hNull
        · rfl
      rw [hRead, (h j a).mpr ha]
      rfl

end Decoder

end GatewayTelemetry
