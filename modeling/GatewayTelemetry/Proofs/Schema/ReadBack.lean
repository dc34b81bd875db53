import GatewayTelemetry.Schema.Layout

/-! # Values read back

What is written of a typed value reads as that value again. The exception are doubles that are not
finite: they have no number, and what is written in their place is not read as a double.
-/

namespace GatewayTelemetry.Decoder

variable {α β : Type}

def notNumber : Fault := .invalidType .null "f64"

theorem float_ofFloat (x : Float) :
    float (.ofFloat x) = if x.isFinite then .ok x else .error notNumber := by
  unfold Json.ofFloat Number.ofFloat?
  by_cases h : x.isFinite = true
  · rw [dif_pos h, if_pos h]
    rfl
  · rw [dif_neg h, if_neg h]
    rfl

theorem int64_ofInt64 (n : Int64) : int64 (.ofInt64 n) = .ok n := by
  have hRange : -9223372036854775808 ≤ n.toInt ∧ n.toInt < 9223372036854775808 :=
    ⟨n.le_toInt, n.toInt_lt⟩
  simp only [int64, Json.ofInt64, bounded]
  rw [if_pos hRange]
  exact congrArg Except.ok n.ofInt_toInt

theorem bounded_ofUInt64 (word : String) (n : UInt64) :
    bounded word 0 UInt64.size (.ofUInt64 n) = .ok (n.toNat : Int) := by
  have hRange : (0 : Int) ≤ n.toNat ∧ (n.toNat : Int) < UInt64.size :=
    ⟨Int.natCast_nonneg _, Int.ofNat_lt.mpr n.toNat_lt_size⟩
  simp only [Json.ofUInt64, bounded]
  rw [if_pos hRange]

theorem uint64_ofUInt64 (n : UInt64) : uint64 (.ofUInt64 n) = .ok n := by
  rw [uint64, bounded_ofUInt64]
  simp [Except.map]

theorem size_ofUInt64 (n : UInt64) : size (.ofUInt64 n) = .ok n := by
  rw [size, bounded_ofUInt64]
  simp [Except.map]

theorem pair_arr (first : Decoder α) (second : Decoder β) (a b : Json) :
    pair first second (.arr [a, b]) = do
      let x ← first a
      let y ← second b
      return (x, y) := by
  simp only [pair, List.isEmpty_nil, if_true]
  rfl

theorem list_map {d : Decoder α} {encode : α → Json} {p : α → Bool} {f : Fault} {l : List α}
    (h : ∀ a ∈ l, d (encode a) = if p a then .ok a else .error f) :
    list d (.arr (l.map encode)) = if l.all p then .ok l else .error f := by
  show (l.map encode).mapM d = _
  induction l with
  | nil => rfl
  | cons a rest ih =>
    have hFirst := h a List.mem_cons_self
    have hRest := ih fun b hb => h b (List.mem_cons_of_mem a hb)
    rw [List.map_cons, List.mapM_cons, hFirst, hRest, List.all_cons]
    cases p a with
    | false => rfl
    | true => cases rest.all p <;> rfl

theorem list_map_ok {d : Decoder α} {encode : α → Json} {l : List α}
    (h : ∀ a ∈ l, d (encode a) = .ok a) : list d (.arr (l.map encode)) = .ok l := by
  rw [list_map (p := fun _ => true) (f := notNumber) fun a ha => by rw [h a ha, if_pos rfl]]
  simp

theorem nullable_ofOption {d : Decoder α} {encode : α → Json} {o : Option α}
    (hValue : ∀ a ∈ o, encode a ≠ .null) (h : ∀ a ∈ o, d (encode a) = .ok a) :
    nullable d (.ofOption encode o) = .ok o := by
  cases o with
  | none => rfl
  | some a =>
    have hRead : nullable d (encode a) = (d (encode a)).map some := by
      have hNotNull := hValue a rfl
      cases hEncoded : encode a with
      | null => exact absurd hEncoded hNotNull
      | bool | num | str | arr | obj => rfl
    show nullable d (encode a) = _
    rw [hRead, h a rfl]
    rfl

end GatewayTelemetry.Decoder
