import GatewayTelemetry.Proofs.Keyed
import GatewayTelemetry.Proofs.Outcome
import GatewayTelemetry.Proofs.Schema.ReadBack
import GatewayTelemetry.Proofs.Series
import GatewayTelemetry.Record.EndpointMap
import GatewayTelemetry.Record.Node

/-! # Records read back

A record that is written and read again is the same record, provided that it stands its own checks
and that its doubles are finite.
-/

namespace GatewayTelemetry

open Decoder

namespace Series

variable {α : Type}

theorem ext {s t : Series α} (hCapacity : s.capacity = t.capacity) (hPoints : s.points = t.points) :
    s = t := by
  cases s
  cases t
  cases hCapacity
  cases hPoints
  rfl

/-- What is kept of a series by every write. -/
structure Dated (s : Series α) : Prop where
  capacity_eq : s.capacity = standardCapacity
  finite : ∀ q ∈ s.points, q.1.isFinite = true

theorem dated_standard : (standard : Series α).Dated where
  capacity_eq := rfl
  finite _ hq := nomatch hq

theorem Dated.pushPoint {s : Series α} (h : s.Dated) {p : Option (Float × α)}
    (hPoint : ∀ q ∈ p, q.1.isFinite = true) : (s.pushPoint p).Dated where
  capacity_eq := (pushPoint_capacity s p).trans h.capacity_eq
  finite q hq := (mem_pushPoint hq).elim (h.finite q) (hPoint q)

theorem appendAll_eq {points : List (Float × α)} (hFinite : ∀ q ∈ points, q.1.isFinite = true)
    {s : Series α} (hRoom : s.points.length + points.length ≤ s.capacity) :
    ∃ t, s.appendAll points = .ok t ∧ t.capacity = s.capacity ∧ t.points = s.points ++ points := by
  induction points generalizing s with
  | nil => exact ⟨s, rfl, rfl, (List.append_nil _).symm⟩
  | cons q rest ih =>
    rw [List.length_cons] at hRoom
    have hAppend : s.append q.2 q.1 = .ok (s.push q.2 q.1) :=
      append_eq_ok_iff.mpr ⟨hFinite q List.mem_cons_self, rfl⟩
    have hPush : (s.push q.2 q.1).points = s.points ++ [q] := by
      have hNone : s.points.length + 1 - s.capacity = 0 := by omega
      simp only [push, room, hNone, List.drop_zero]
    obtain ⟨t, hAll, hCapacity, hPoints⟩ := ih (s := s.push q.2 q.1)
      (fun r hr => hFinite r (List.mem_cons_of_mem q hr))
      (by rw [hPush, List.length_append, List.length_singleton]; simp only [push]; omega)
    refine ⟨t, ?_, hCapacity, ?_⟩
    · rw [appendAll, hAppend]
      exact hAll
    · rw [hPoints, hPush, List.append_assoc]
      rfl

theorem decode_encode {d : Decoder α} {encode : α → Json} {p : α → Bool} {f : Fault}
    {s : Series α} (hDated : s.Dated)
    (h : ∀ q ∈ s.points, d (encode q.2) = if p q.2 then .ok q.2 else .error f) :
    decode d (s.encode encode) =
      if s.points.all fun q => p q.2 then .ok s else .error f := by
  have hPoint : ∀ q ∈ s.points, pair float d (.arr [.ofFloat q.1, encode q.2]) =
      if p q.2 then .ok q else .error f := by
    intro q hq
    rw [pair_arr, float_ofFloat, if_pos (hDated.finite q hq), h q hq]
    cases p q.2 <;> rfl
  have hList := list_map (p := fun q : Float × α => p q.2) hPoint
  unfold decode Series.encode
  rw [hList]
  cases s.points.all fun q => p q.2 with
  | false => rfl
  | true =>
    have hShort : ¬ standardCapacity < s.points.length := by
      have := s.length_le
      have := hDated.capacity_eq
      omega
    obtain ⟨t, hAll, hCapacity, hPoints⟩ := appendAll_eq hDated.finite (s := standard)
      (Nat.le_trans (by simp [standard, ofCapacity]) (Nat.le_of_not_lt hShort))
    have hSame : t = s := ext (hCapacity.trans hDated.capacity_eq.symm) hPoints
    show (if standardCapacity < s.points.length then _ else _) = _
    rw [if_neg hShort, hAll, hSame]
    rfl

theorem decode_encode_ok {d : Decoder α} {encode : α → Json} {s : Series α} (hDated : s.Dated)
    (h : ∀ q ∈ s.points, d (encode q.2) = .ok q.2) : decode d (s.encode encode) = .ok s := by
  rw [decode_encode (p := fun _ => true) (f := notNumber) hDated fun q hq => by
    rw [h q hq, if_pos rfl]]
  simp

end Series

def Sample.Finite (p : Sample) : Prop := p.1.isFinite = true ∧ p.2.isFinite = true

theorem Sample.decodeList_encodeList {samples : List Sample} (h : ∀ p ∈ samples, p.Finite) :
    decodeList (encodeList samples) = .ok samples := by
  apply list_map_ok
  intro p hp
  rw [decode, encode, pair_arr, float_ofFloat, float_ofFloat, if_pos (h p hp).1, if_pos (h p hp).2]
  rfl

namespace Usage

theorem validate_iff {resource : Resource} {u : Usage} :
    u.validate resource = .ok () ↔ 0 ≤ u.total := by
  unfold validate
  split <;> simp <;> grind

def Finite (u : Usage) : Prop := ∀ p ∈ u.samples, p.Finite

theorem decode_encode (resource : Resource) {u : Usage} (h : u.Finite) :
    decode resource u.encode = .ok u := by
  have hTotal : int64 (.ofInt64 u.total) = .ok u.total := int64_ofInt64 u.total
  have hSamples : Sample.decodeList (Sample.encodeList u.samples) = .ok u.samples :=
    Sample.decodeList_encodeList h
  simp [decode, encode, layout, Layout.row, Layout.keyedRow, Layout.visit, Layout.column?,
    Layout.gather, Column.must, ofRow, Row.get, hTotal, hSamples, bind, Except.bind, pure,
    Except.pure, Except.map]

end Usage

namespace NetworkUsage

theorem validate_iff {u : NetworkUsage} : u.validate = .ok () ↔ u.device ≠ "" := by
  unfold validate
  split <;> simp_all

structure Finite (u : NetworkUsage) : Prop where
  received : ∀ p ∈ u.received, p.Finite
  sent : ∀ p ∈ u.sent, p.Finite

theorem decode_encode {u : NetworkUsage} (h : u.Finite) : decode u.encode = .ok u := by
  have hReceived := Sample.decodeList_encodeList h.received
  have hSent := Sample.decodeList_encodeList h.sent
  simp [decode, encode, layout, Layout.row, Layout.keyedRow, Layout.visit, Layout.column?,
    Layout.gather, Column.must, ofRow, Row.get, text, hReceived, hSent, bind, Except.bind, pure,
    Except.pure, Except.map]

end NetworkUsage

namespace NodeRecord

structure Finite (n : NodeRecord) : Prop where
  cpu : ∀ u ∈ n.cpu, u.Finite
  memory : ∀ u ∈ n.memory, u.Finite
  network : ∀ u ∈ n.network, u.Finite

theorem decode_encode {n : NodeRecord} (h : n.Finite) : decode n.encode = .ok n := by
  have hAddress : nullable text (.ofOption .str n.address) = .ok n.address :=
    nullable_ofOption (fun _ _ => nofun) fun _ _ => rfl
  have hCpu : nullable (Usage.decode .cpu) (.ofOption Usage.encode n.cpu) = .ok n.cpu :=
    nullable_ofOption (fun _ _ => nofun) fun u hu => Usage.decode_encode .cpu (h.cpu u hu)
  have hMemory : nullable (Usage.decode .memory) (.ofOption Usage.encode n.memory) =
      .ok n.memory :=
    nullable_ofOption (fun _ _ => nofun) fun u hu => Usage.decode_encode .memory (h.memory u hu)
  have hNetwork : nullable NetworkUsage.decode (.ofOption NetworkUsage.encode n.network) =
      .ok n.network :=
    nullable_ofOption (fun _ _ => nofun) fun u hu => NetworkUsage.decode_encode (h.network u hu)
  simp [decode, encode, layout, Layout.row, Layout.keyedRow, Layout.visit, Layout.column?,
    Layout.gather, Column.must, Column.may, ofRow, Row.get, Row.getD, text, hAddress, hCpu,
    hMemory, hNetwork, bind, Except.bind, pure, Except.pure, Except.map]

theorem ofFields_encode {n : NodeRecord} (h : n.Finite) :
    ofFields n.encode = n.validate.map fun _ => n := by
  unfold ofFields
  rw [decode_encode h]
  simp only [Except.mapError, bind, Except.bind, pure, Except.pure]
  cases n.validate <;> rfl

/-- What a node may have after a report, as its own checks would have it. -/
structure Sound (n : NodeRecord) : Prop where
  cpu : ∀ u ∈ n.cpu, 0 ≤ u.total
  memory : ∀ u ∈ n.memory, 0 ≤ u.total
  network : ∀ u ∈ n.network, u.device ≠ ""

theorem validatePart_iff {α : Type} {check : α → Except RecordError Unit} {o : Option α} :
    validatePart check o = .ok () ↔ ∀ a ∈ o, check a = .ok () := by
  cases o <;> simp [validatePart]

theorem valid_iff {n : NodeRecord} : n.validate = .ok () ↔ n.name ≠ "" ∧ n.Sound := by
  unfold validate
  split
  · simp_all [bind, Except.bind]
  · rename_i hName
    simp only [check_bind_eq_ok_iff, validatePart_iff, Usage.validate_iff,
      NetworkUsage.validate_iff]
    constructor
    · rintro ⟨hCpu, hMemory, hNetwork⟩
      exact ⟨by simpa using hName, hCpu, hMemory, hNetwork⟩
    · rintro ⟨_, hCpu, hMemory, hNetwork⟩
      exact ⟨hCpu, hMemory, hNetwork⟩

theorem validate_iff {n : NodeRecord} (hName : n.name ≠ "") : n.validate = .ok () ↔ n.Sound :=
  valid_iff.trans (and_iff_right hName)

end NodeRecord

namespace Endpoint

theorem validate_iff {e : Endpoint} : e.validate = .ok () ↔ e.name ≠ "" := by
  unfold validate
  split <;> simp_all

structure Dated (e : Endpoint) : Prop where
  latencies : e.latencies.Dated
  sent : e.sent.Dated
  received : e.received.Dated

theorem dated_fresh (name : String) : (fresh name).Dated :=
  ⟨Series.dated_standard, Series.dated_standard, Series.dated_standard⟩

def measured (e : Endpoint) : Bool := e.latencies.points.all fun q => q.2.isFinite

theorem decode_encode {e : Endpoint} (h : e.Dated) :
    decode e.encode = if e.measured then .ok e else .error notNumber := by
  have hLatencies : Series.decode float (e.latencies.encode .ofFloat) =
      if e.measured then .ok e.latencies else .error notNumber :=
    Series.decode_encode h.latencies fun q _ => float_ofFloat q.2
  have hSent : Series.decode uint64 (e.sent.encode .ofUInt64) = .ok e.sent :=
    Series.decode_encode_ok h.sent fun q _ => uint64_ofUInt64 q.2
  have hReceived : Series.decode uint64 (e.received.encode .ofUInt64) = .ok e.received :=
    Series.decode_encode_ok h.received fun q _ => uint64_ofUInt64 q.2
  cases hMeasured : e.measured with
  | false =>
    rw [hMeasured] at hLatencies
    simp [decode, encode, layout, Layout.row, Layout.keyedRow, Layout.visit, Layout.column?,
      Column.must, Column.may, hLatencies, bind, Except.bind, Except.map]
  | true =>
    rw [hMeasured] at hLatencies
    simp [decode, encode, layout, Layout.row, Layout.keyedRow, Layout.visit, Layout.column?,
      Layout.gather, Column.must, Column.may, ofRow, Row.get, Row.getD, text, hLatencies, hSent,
      hReceived, bind, Except.bind, pure, Except.pure, Except.map]

end Endpoint

namespace EndpointMap

/-- What is kept of the map by every write to an endpoint that has a name. -/
def Dated (m : EndpointMap) : Prop := ∀ e ∈ m.entries, e.2.name = e.1 ∧ e.1 ≠ "" ∧ e.2.Dated

def measured (m : EndpointMap) : Bool := m.entries.all fun e => e.2.measured

theorem decodeEntries_encode {entries : List (String × Endpoint)}
    (h : ∀ e ∈ entries, e.2.Dated) :
    decodeEntries (entries.map fun e => (e.1, e.2.encode)) =
      if entries.all fun e => e.2.measured then .ok entries else .error notNumber := by
  induction entries with
  | nil => rfl
  | cons e rest ih =>
    have hRest := ih fun x hx => h x (List.mem_cons_of_mem e hx)
    rw [List.map_cons, decodeEntries, hRest, Endpoint.decode_encode (h e List.mem_cons_self),
      List.all_cons]
    cases e.2.measured with
    | false => rfl
    | true => cases rest.all fun e => e.2.measured <;> rfl

theorem validateEntries_iff {entries : List (String × Endpoint)} :
    validateEntries entries = .ok () ↔ ∀ e ∈ entries, e.2.name ≠ "" ∧ e.2.name = e.1 := by
  induction entries with
  | nil => simp [validateEntries]
  | cons e rest ih =>
    rw [List.forall_mem_cons, ← ih, validateEntries, check_bind_eq_ok_iff, Endpoint.validate_iff,
      and_assoc]
    apply and_congr_right
    intro _
    by_cases hKey : e.2.name = e.1
    · simp [hKey]
    · simp [hKey, Ne.symm hKey, bind, Except.bind]

theorem validate_iff {m : EndpointMap} :
    validate m = .ok () ↔ ∀ e ∈ m.entries, e.2.name ≠ "" ∧ e.2.name = e.1 := validateEntries_iff

theorem decode_encode {m : EndpointMap} (h : ∀ e ∈ m.entries, e.2.Dated) :
    decode (encode m) = if m.measured then .ok m else .error notNumber := by
  show (decodeEntries _).map Keyed.ofList = _
  rw [decodeEntries_encode h]
  show Except.map Keyed.ofList (if m.measured then _ else _) = _
  cases m.measured with
  | false => rfl
  | true => exact congrArg Except.ok m.ofList_entries

theorem ofFields_encode {m : EndpointMap} (h : m.Dated) :
    ofFields (encode m) = if m.measured then .ok m else .error (.shape notNumber) := by
  have hValid : validate m = .ok () :=
    validate_iff.mpr fun e he => ⟨(h e he).1.symm ▸ (h e he).2.1, (h e he).1⟩
  unfold ofFields
  rw [decode_encode fun e he => (h e he).2.2]
  cases m.measured with
  | false => rfl
  | true =>
    show (validate m).bind _ = _
    rw [hValid]
    rfl

end EndpointMap

end GatewayTelemetry
