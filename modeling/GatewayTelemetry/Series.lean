import GatewayTelemetry.Schema.Scalar

/-! # Bounded series of points

A series holds points in the order they were appended, never more than its capacity: appending to
a full series drops the oldest point. Only finite timestamps are taken.
-/

namespace GatewayTelemetry

structure Series (α : Type) where
  capacity : Nat
  points : List (Float × α)
  capacity_pos : 0 < capacity
  length_le : points.length ≤ capacity

namespace Series

variable {α : Type}

def standardCapacity : Nat := 60

/-- An empty series; a requested capacity of zero acts as one. -/
def ofCapacity (requested : Nat) : Series α := ⟨max requested 1, [], by omega, by simp⟩

def standard : Series α := ofCapacity standardCapacity

instance : Inhabited (Series α) := ⟨standard⟩

def room (s : Series α) : List (Float × α) := s.points.drop (s.points.length + 1 - s.capacity)

theorem length_room_lt (s : Series α) : s.room.length < s.capacity := by
  have := s.capacity_pos
  have := s.length_le
  simp only [room, List.length_drop]
  omega

def push (s : Series α) (value : α) (timestamp : Float) : Series α :=
  { s with
    points := s.room ++ [(timestamp, value)]
    length_le := by
      rw [List.length_append]
      exact s.length_room_lt }

/-- Appends a point, or fails with the timestamp that is not finite. -/
def append (s : Series α) (value : α) (timestamp : Float) : Except Float (Series α) :=
  if timestamp.isFinite then .ok (s.push value timestamp) else .error timestamp

def clear (s : Series α) : Series α := { s with points := [], length_le := by simp }

def size (s : Series α) : Nat := s.points.length

def isEmpty (s : Series α) : Bool := s.points.isEmpty

def latest? (s : Series α) : Option (Float × α) := s.points.getLast?

def values (s : Series α) : List α := s.points.map (·.2)

theorem append_eq_ok_iff {s t : Series α} {v : α} {x : Float} :
    s.append v x = .ok t ↔ x.isFinite = true ∧ t = s.push v x := by
  unfold append
  by_cases h : x.isFinite = true
  · rw [if_pos h, Except.ok.injEq, eq_comm]
    exact ⟨fun e => ⟨h, e⟩, fun e => e.2⟩
  · rw [if_neg h]
    exact ⟨nofun, fun e => absurd e.1 h⟩

def appendAll (s : Series α) : List (Float × α) → Except Float (Series α)
  | [] => .ok s
  | p :: rest => do
    let s ← s.append p.2 p.1
    s.appendAll rest

def decode (d : Decoder α) : Decoder (Series α) := fun j => do
  let points ← Decoder.list (Decoder.pair Decoder.float d) j
  if standardCapacity < points.length then .error (.seriesTooLong points.length standardCapacity)
  else
    match standard.appendAll points with
    | .ok s => .ok s
    | .error t => .error (.timestampNotFinite t)

def encode (e : α → Json) (s : Series α) : Json :=
  .arr (s.points.map fun p => .arr [.ofFloat p.1, e p.2])

def evict (s : Series α) : Series α :=
  if s.points.length = s.capacity then
    { s with
      points := s.points.tail
      length_le := Nat.le_trans (List.length_tail ▸ Nat.sub_le _ 1) s.length_le }
  else s

theorem length_evict_lt (s : Series α) : s.evict.points.length < s.evict.capacity := by
  have hPos := s.capacity_pos
  have hLength := s.length_le
  unfold evict
  split
  · show s.points.tail.length < s.capacity
    rw [List.length_tail]
    omega
  · show s.points.length < s.capacity
    omega

def put (s : Series α) (value : α) (timestamp : Float) (h : s.points.length < s.capacity) :
    Series α :=
  { s with
    points := s.points ++ [(timestamp, value)]
    length_le := by
      rw [List.length_append]
      exact h }

inductive Operation (α : Type) where
  | append (value : α) (timestamp : Float)
  | clear

/-- Work on one series in place. A failure leaves behind what was done before it, so the timestamp
is looked at first. -/
def Operation.work : Operation α → ExceptT Float (StateM (Series α)) Unit
  | append value timestamp => do
    if !timestamp.isFinite then throw timestamp
    modify fun s => s.evict.put value timestamp s.length_evict_lt
  | clear => modify Series.clear

def apply (s : Series α) (op : Operation α) : Except Float Unit × Series α := op.work.run.run s

end Series

end GatewayTelemetry
