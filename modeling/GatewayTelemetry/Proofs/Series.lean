import GatewayTelemetry.Series
import Mathlib.Data.List.DropRight

/-! # What a series remembers

A series holds the latest of all points pushed onto it, as many as it has room for. This survives
every push, whether or not the oldest point has to go.
-/

namespace GatewayTelemetry.Series

variable {α : Type}

def Remembers (s : Series α) (past : List (Float × α)) : Prop := s.points = past.rtake s.capacity

theorem Remembers.points {s : Series α} {past : List (Float × α)} (h : s.Remembers past) {n : Nat}
    (hCapacity : s.capacity = n) : s.points = past.rtake n := by
  rw [← hCapacity]
  exact h

theorem remembers_ofCapacity (requested : Nat) :
    (ofCapacity requested : Series α).Remembers [] := (List.rtake_nil _).symm

theorem rtake_rtake {β : Type} (l : List β) {m n : Nat} (h : m ≤ n) :
    (l.rtake n).rtake m = l.rtake m := by
  simp only [List.rtake, List.drop_drop, List.length_drop]
  congr 1
  omega

theorem room_eq_rtake (s : Series α) : s.room = s.points.rtake (s.capacity - 1) := by
  have hPos := s.capacity_pos
  rw [room, List.rtake]
  congr 1
  omega

theorem Remembers.push {s : Series α} {past : List (Float × α)} (h : s.Remembers past) (v : α)
    (t : Float) : (s.push v t).Remembers (past ++ [(t, v)]) := by
  have hPos := s.capacity_pos
  obtain ⟨n, hCapacity⟩ : ∃ n, s.capacity = n + 1 := ⟨s.capacity - 1, by omega⟩
  have hRoom : s.room = past.rtake n := by
    rw [room_eq_rtake, h, rtake_rtake past (by omega), hCapacity, Nat.add_sub_cancel]
  show s.room ++ [(t, v)] = (past ++ [(t, v)]).rtake s.capacity
  rw [hRoom, hCapacity, List.rtake_concat_succ]

def pushPoint (s : Series α) : Option (Float × α) → Series α
  | some p => s.push p.2 p.1
  | none => s

@[simp]
theorem pushPoint_capacity (s : Series α) (p : Option (Float × α)) :
    (s.pushPoint p).capacity = s.capacity := by
  cases p <;> rfl

theorem mem_pushPoint {s : Series α} {p : Option (Float × α)} {q : Float × α}
    (h : q ∈ (s.pushPoint p).points) : q ∈ s.points ∨ q ∈ p := by
  cases p with
  | none => exact .inl h
  | some p =>
    rcases List.mem_append.mp h with hOld | hNew
    · exact .inl (List.mem_of_mem_drop hOld)
    · exact .inr (List.mem_singleton.mp hNew ▸ rfl)

theorem Remembers.pushPoint {s : Series α} {past : List (Float × α)} (h : s.Remembers past)
    (p : Option (Float × α)) : (s.pushPoint p).Remembers (past ++ p.toList) := by
  cases p with
  | none =>
    rw [Option.toList_none, List.append_nil]
    exact h
  | some p => exact h.push p.2 p.1

theorem Remembers.isEmpty {s : Series α} {past : List (Float × α)} (h : s.Remembers past) :
    s.isEmpty = true ↔ past = [] := by
  have hPos := s.capacity_pos
  rw [Series.isEmpty, h, List.isEmpty_iff, List.rtake, List.drop_eq_nil_iff]
  constructor
  · intro hLength
    exact List.length_eq_zero_iff.mp (by omega)
  · rintro rfl
    exact Nat.zero_le _

end GatewayTelemetry.Series
