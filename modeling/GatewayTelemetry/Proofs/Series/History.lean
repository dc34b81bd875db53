import GatewayTelemetry.Proofs.Record.Meaning
import Mathlib.Data.List.DropRight

/-! # What a series holds after a history

Since it was last cleared a series holds the latest of the points it accepted, as many as it has
room for. A series that is loaded holds the points of its document, which have to be no more than
there is room for, and goes on from them.
-/

namespace GatewayTelemetry.Series

variable {α : Type}

namespace Operation

def isClear : Operation α → Bool
  | append _ _ => false
  | clear => true

def point? : Operation α → Option (Float × α)
  | append value timestamp => if timestamp.isFinite then some (timestamp, value) else none
  | clear => none

end Operation

def run (s : Series α) (history : List (Operation α)) : Series α :=
  history.foldl (fun s op => (s.apply op).2) s

def accepted (history : List (Operation α)) : List (Float × α) :=
  (history.rtakeWhile fun op => !op.isClear).filterMap Operation.point?

/-- The points accepted since the last clear, behind those of the start if nothing was cleared. -/
def acceptedOnto (start : List (Float × α)) (history : List (Operation α)) : List (Float × α) :=
  (if history.any Operation.isClear then [] else start) ++ accepted history

theorem put_evict (s : Series α) (v : α) (t : Float) :
    s.evict.put v t s.length_evict_lt = s.push v t := by
  have hPos := s.capacity_pos
  have hLength := s.length_le
  have hEvict : s.evict.points = s.room := by
    rw [evict, room]
    split
    · rename_i hFull
      rw [hFull, Nat.add_sub_cancel_left, List.drop_one]
    · rw [Nat.sub_eq_zero_of_le (by omega), List.drop_zero]
  have hCapacity : s.evict.capacity = s.capacity := by
    rw [evict]
    split <;> rfl
  simp only [put, push, hEvict, hCapacity]

theorem apply_append (s : Series α) (v : α) (t : Float) :
    s.apply (.append v t) =
      match s.append v t with
      | .ok s' => (.ok (), s')
      | .error t => (.error t, s) := by
  rw [append]
  cases hFinite : t.isFinite with
  | true =>
    rw [if_pos rfl, ← put_evict]
    simp only [apply, Operation.work, hFinite]
    rfl
  | false =>
    simp only [apply, Operation.work, hFinite]
    rfl

theorem apply_append_of_finite (s : Series α) (v : α) {t : Float} (h : t.isFinite = true) :
    s.apply (.append v t) = (.ok (), s.push v t) := by
  rw [apply_append, append_eq_ok_iff.mpr ⟨h, rfl⟩]

theorem apply_append_of_not_finite (s : Series α) (v : α) {t : Float} (h : t.isFinite = false) :
    s.apply (.append v t) = (.error t, s) := by
  rw [apply_append, append, if_neg (by simp [h])]

theorem apply_append_ok_iff {s : Series α} {v : α} {t : Float} :
    (s.apply (.append v t)).1 = .ok () ↔ t.isFinite = true := by
  cases hFinite : t.isFinite with
  | true => simp [apply_append_of_finite s v hFinite]
  | false => simp [apply_append_of_not_finite s v hFinite]

theorem snd_apply_append (s : Series α) (v : α) (t : Float) :
    (s.apply (.append v t)).2 = s.pushPoint (Operation.append v t).point? := by
  rw [Operation.point?]
  cases hFinite : t.isFinite with
  | true => rw [apply_append_of_finite s v hFinite]; rfl
  | false => rw [apply_append_of_not_finite s v hFinite]; rfl

theorem capacity_apply (s : Series α) (op : Operation α) :
    (s.apply op).2.capacity = s.capacity := by
  cases op with
  | append v t => rw [snd_apply_append, pushPoint_capacity]
  | clear => rfl

theorem Remembers.apply {s : Series α} {past : List (Float × α)} (h : s.Remembers past)
    (op : Operation α) :
    (s.apply op).2.Remembers (if op.isClear then [] else past ++ op.point?.toList) := by
  cases op with
  | append v t =>
    rw [snd_apply_append]
    exact h.pushPoint _
  | clear => exact (List.rtake_nil _).symm

theorem accepted_concat (history : List (Operation α)) (op : Operation α) :
    accepted (history ++ [op]) =
      if op.isClear then [] else accepted history ++ op.point?.toList := by
  rw [accepted, List.rtakeWhile_concat]
  cases op with
  | append v t =>
    simp only [Operation.isClear, Bool.not_false, if_true, List.filterMap_append,
      Bool.false_eq_true, if_false]
    rfl
  | clear => rfl

theorem acceptedOnto_concat (start : List (Float × α)) (history : List (Operation α))
    (op : Operation α) :
    acceptedOnto start (history ++ [op]) =
      if op.isClear then [] else acceptedOnto start history ++ op.point?.toList := by
  rw [acceptedOnto, accepted_concat, List.any_append, List.any_cons, List.any_nil, Bool.or_false]
  cases op.isClear with
  | true => simp
  | false => simp [acceptedOnto, List.append_assoc]

theorem acceptedOnto_nil (history : List (Operation α)) :
    acceptedOnto [] history = accepted history := by
  rw [acceptedOnto, ite_self, List.nil_append]

theorem run_concat (s : Series α) (history : List (Operation α)) (op : Operation α) :
    s.run (history ++ [op]) = ((s.run history).apply op).2 := by
  rw [run, List.foldl_append]
  rfl

theorem capacity_run (s : Series α) (history : List (Operation α)) :
    (s.run history).capacity = s.capacity := by
  induction history using List.reverseRecOn with
  | nil => rfl
  | append_singleton history op ih => rw [run_concat, capacity_apply, ih]

theorem Remembers.run {s : Series α} {past : List (Float × α)} (h : s.Remembers past)
    (history : List (Operation α)) : (s.run history).Remembers (acceptedOnto past history) := by
  induction history using List.reverseRecOn with
  | nil => simpa [Series.run, acceptedOnto, accepted] using h
  | append_singleton history op ih =>
    rw [run_concat, acceptedOnto_concat]
    exact ih.apply op

structure Holds (s : Series α) (capacity : Nat) (past : List (Float × α)) : Prop where
  capacity_eq : s.capacity = capacity
  suffix : s.points <:+ past
  size_eq : s.size = min past.length capacity
  latest_eq : s.latest? = past.getLast?

theorem Remembers.holds {s : Series α} {past : List (Float × α)} (h : s.Remembers past) :
    s.Holds s.capacity past := by
  have hPos := s.capacity_pos
  refine ⟨rfl, ?_, ?_, ?_⟩
  · rw [h]
    exact List.drop_suffix _ _
  · rw [size, h, List.rtake, List.length_drop]
    omega
  · rw [latest?, h, List.rtake, List.getLast?_drop]
    split
    · rename_i hNone
      rw [List.length_eq_zero_iff.mp (show past.length = 0 by omega), List.getLast?_nil]
    · rfl

theorem holds_run_ofCapacity (requested : Nat) (history : List (Operation α)) :
    ((ofCapacity requested).run history).Holds (max requested 1) (accepted history) := by
  have h := ((remembers_ofCapacity requested).run history).holds
  rwa [capacity_run, acceptedOnto_nil] at h

theorem holds_run (s : Series α) (history : List (Operation α)) :
    (s.run history).Holds s.capacity (acceptedOnto s.points history) := by
  have hAll : s.Remembers s.points := by
    rw [Remembers, List.rtake, Nat.sub_eq_zero_of_le s.length_le, List.drop_zero]
  have h := (hAll.run history).holds
  rwa [capacity_run] at h

/-- A series holds the latest of the points accepted since it was cleared, an append without a finite
timestamp fails and changes nothing, and what is loaded is a list of at most sixty points. -/
theorem holds_the_latest {d : Decoder α} {value : Meaning α} (h : d.Reads value) :
    (∀ (requested : Nat) (history : List (Operation α)),
      ((ofCapacity requested).run history).Holds (max requested 1) (accepted history)) ∧
    (∀ (s : Series α) (v : α) (t : Float),
      ((s.apply (.append v t)).1 = .ok () ↔ t.isFinite = true) ∧
        (t.isFinite = false → s.apply (.append v t) = (.error t, s))) ∧
    (∀ j, (∃ s, decode d j = .ok s) ↔
      ∃ points, Meaning.list (.pair .float value) j points ∧ points.length ≤ 60) ∧
    (∀ j s, decode d j = .ok s →
      Meaning.list (.pair .float value) j s.points ∧ s.capacity = 60 ∧
        ∀ history, (s.run history).Holds 60 (acceptedOnto s.points history)) := by
  have hReads := decode_reads h
  refine ⟨holds_run_ofCapacity, fun s v t => ⟨apply_append_ok_iff, apply_append_of_not_finite s v⟩,
    fun j => ⟨?_, ?_⟩, ?_⟩
  · rintro ⟨s, hLoad⟩
    obtain ⟨hPoints, hLength, _⟩ := (hReads j s).mp hLoad
    exact ⟨s.points, hPoints, hLength⟩
  · rintro ⟨points, hPoints, hLength⟩
    exact ⟨⟨60, points, by decide, hLength⟩, (hReads j _).mpr ⟨hPoints, hLength, rfl⟩⟩
  · intro j s hLoad
    obtain ⟨hPoints, _, hCapacity⟩ := (hReads j s).mp hLoad
    refine ⟨hPoints, hCapacity, fun history => ?_⟩
    have hHolds := holds_run s history
    rwa [hCapacity] at hHolds

/-- No capacity asked for, a clear, two appends without a finite timestamp; then a loaded series. -/
theorem holds_the_latest_refused :
    let nan : Float := 0 / 0
    let history : List (Operation UInt64) :=
      [.append 1 1, .clear, .append 2 2, .append 3 nan, .append 4 4, .append 5 (1 / 0)]
    let document : Json := .arr [.arr [.num (.int 1 (by decide)), .ofUInt64 7]]
    Decoder.uint64.Reads Meaning.uint64 ∧
      ((ofCapacity 0).run history).Holds 1 [(2, 2), (4, 4)] ∧
      ((ofCapacity 0).run history).apply (.append 6 nan) =
        (.error nan, (ofCapacity 0).run history) ∧
      ∃ s, decode Decoder.uint64 document = .ok s ∧ s.capacity = 60 ∧
        (s.run history).Holds 60 [(2, 2), (4, 4)] := by
  intro nan history document
  obtain ⟨hRuns, hAppends, hLoads, hLoaded⟩ := holds_the_latest Decoder.uint64_reads
  have hAccepted : accepted history = [(2, 2), (4, 4)] := by decide +kernel
  have hDocument : Meaning.list (.pair .float .uint64) document [(Float.ofInt 1, 7)] :=
    .items (.cons (.items (.integer 1 _) (.integer 7 _)) .nil)
  obtain ⟨s, hLoad⟩ := (hLoads document).mpr ⟨_, hDocument, by decide⟩
  obtain ⟨_, hCapacity, hGoesOn⟩ := hLoaded document s hLoad
  refine ⟨Decoder.uint64_reads, hAccepted ▸ hRuns 0 history, ?_, s, hLoad, hCapacity, ?_⟩
  · exact (hAppends _ 6 nan).2 (by decide +kernel)
  · -- The history clears what was loaded.
    exact hAccepted ▸ hGoesOn history

end GatewayTelemetry.Series
