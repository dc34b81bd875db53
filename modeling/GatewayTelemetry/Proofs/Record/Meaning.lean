import GatewayTelemetry.Proofs.Record.ReadBack
import GatewayTelemetry.Proofs.Schema.Row

/-! # What the records denote

The schema of each record in the words of the format, and beside it the checks that a record has to
stand. A value is accepted just when it denotes a record that stands them, and then as that record.
-/

namespace GatewayTelemetry

namespace Meaning

def samples : Meaning (List Sample) := list (pair float float)

structure series {α : Type} (value : Meaning α) (j : Json) (s : Series α) : Prop where
  points : list (pair float value) j s.points
  length_le : s.points.length ≤ Series.standardCapacity
  capacity_eq : s.capacity = Series.standardCapacity

inductive usage : Json → Usage → Prop
  | cells {j : Json} {total samples : Option Json} {u : Usage}
      (hCells : Cells ["total", "usages"] j [total, samples])
      (hTotal : required int64 total u.total)
      (hSamples : required Meaning.samples samples u.samples) : usage j u

inductive networkUsage : Json → NetworkUsage → Prop
  | cells {j : Json} {device received sent : Option Json} {u : NetworkUsage}
      (hCells : Cells ["device", "rx_bytes", "tx_bytes"] j [device, received, sent])
      (hDevice : required text device u.device)
      (hReceived : required samples received u.received)
      (hSent : required samples sent u.sent) : networkUsage j u

inductive node : Json → NodeRecord → Prop
  | cells {j : Json} {name address cpu memory network : Option Json} {n : NodeRecord}
      (hCells : Cells ["name", "instance", "cpu_metric", "memory_metric", "network_metric"] j
        [name, address, cpu, memory, network])
      (hName : required text name n.name)
      (hAddress : optional (nullable text) none address n.address)
      (hCpu : optional (nullable usage) none cpu n.cpu)
      (hMemory : optional (nullable usage) none memory n.memory)
      (hNetwork : optional (nullable networkUsage) none network n.network) : node j n

inductive endpoint : Json → Endpoint → Prop
  | cells {j : Json} {name latencies sent received : Option Json} {e : Endpoint}
      (hCells : Cells ["name", "latencies", "tx_bytes", "rx_bytes"] j
        [name, latencies, sent, received])
      (hName : required text name e.name)
      (hLatencies : optional (series float) .standard latencies e.latencies)
      (hSent : optional (series uint64) .standard sent e.sent)
      (hReceived : optional (series uint64) .standard received e.received) : endpoint j e

/-- The member of a key; of several the last one, though no object in canonical form has several. -/
def lastMember? (fields : List (String × Json)) (key : String) : Option Json :=
  (fields.reverse.find? fun f => f.1 == key).map (·.2)

/-- An object, never an array, of endpoints under their keys. -/
inductive endpointMap : Json → EndpointMap → Prop
  | members {fields : List (String × Json)} {m : EndpointMap}
      (hMembers : ∀ f ∈ fields, ∃ e, endpoint f.2 e)
      (hEntries : ∀ key e,
        m.find? key = some e ↔ ∃ j, lastMember? fields key = some j ∧ endpoint j e) :
      endpointMap (.obj fields) m

end Meaning

open Decoder (Reads)
open Meaning (required optional nullable)

theorem Series.decode_reads {α : Type} {d : Decoder α} {value : Meaning α} (h : d.Reads value) :
    Reads (Series.decode d) (Meaning.series value) := by
  have hList := (Decoder.float_reads.pair h).list
  -- Up to the capacity no append drops a point, so what was read is what is kept.
  have hFilled : ∀ points : List (Float × α), (∀ q ∈ points, q.1.isFinite = true) →
      points.length ≤ standardCapacity →
      ∃ t : Series α, standard.appendAll points = .ok t ∧ t.capacity = standardCapacity ∧
        t.points = points :=
    fun points hFinite hLength => appendAll_eq hFinite
      (by simpa [standard, ofCapacity] using .inl hLength)
  have hFinite : ∀ {j : Json} {points : List (Float × α)},
      Meaning.list (Meaning.pair Meaning.float value) j points →
        ∀ q ∈ points, q.1.isFinite = true := by
    intro j points hPoints
    refine hPoints.forall ?_
    rintro _ _ @⟨x, y, t, v, hTime, _⟩
    exact hTime.isFinite
  intro j s
  rw [decode, bind_eq_ok_iff]
  constructor
  · rintro ⟨points, hRead, hDone⟩
    have hPoints := (hList j points).mp hRead
    split at hDone
    · cases hDone
    · rename_i hShort
      have hLength : points.length ≤ standardCapacity := Nat.le_of_not_lt hShort
      obtain ⟨t, hAll, hCapacity, hSame⟩ := hFilled points (hFinite hPoints) hLength
      rw [hAll] at hDone
      cases hDone
      exact ⟨hSame.symm ▸ hPoints, hSame.symm ▸ hLength, hCapacity⟩
  · rintro ⟨hPoints, hLength, hCapacity⟩
    obtain ⟨t, hAll, hFull, hSame⟩ := hFilled s.points (hFinite hPoints) hLength
    refine ⟨s.points, (hList j s.points).mpr hPoints, ?_⟩
    rw [if_neg (Nat.not_lt.mpr hLength), hAll, ext (hFull.trans hCapacity.symm) hSame]

theorem Sample.decodeList_reads : Reads Sample.decodeList Meaning.samples :=
  (Decoder.float_reads.pair Decoder.float_reads).list

namespace Usage

variable {resource : Resource}

theorem ofRow_eq_ok_iff {total samples : Option Json} {u : Usage} :
    ofRow (Layout.rowOf (layout resource).columns [total, samples]) = .ok u ↔
      required Meaning.int64 total u.total ∧ required Meaning.samples samples u.samples := by
  simp (disch := decide) only [layout, ofRow, bind_eq_ok_iff, pure_eq_ok_iff,
    Layout.get_rowOf_of_ne, Decoder.int64_reads.get, Sample.decodeList_reads.get]
  constructor
  · rintro ⟨_, hTotal, _, hSamples, rfl⟩
    exact ⟨hTotal, hSamples⟩
  · rintro ⟨hTotal, hSamples⟩
    exact ⟨_, hTotal, _, hSamples, rfl⟩

theorem decode_reads : Reads (decode resource) Meaning.usage := by
  intro j u
  refine (Layout.read_eq_ok_iff rfl (by show ["total", "usages"].Nodup; decide)).trans ?_
  constructor
  · rintro ⟨_, hCells, hFits, hRead⟩
    simp only [layout, List.forall₂_cons_left_iff, List.forall₂_nil_left_iff] at hFits
    obtain ⟨total, _, _, ⟨samples, _, _, rfl, rfl⟩, rfl⟩ := hFits
    obtain ⟨hTotal, hSamples⟩ := ofRow_eq_ok_iff.mp hRead
    exact .cells hCells hTotal hSamples
  · rintro ⟨hCells, hTotal, hSamples⟩
    refine ⟨_, hCells, .cons ?_ (.cons ?_ .nil), ofRow_eq_ok_iff.mpr ⟨hTotal, hSamples⟩⟩
    · exact Decoder.int64_reads.fits_must hTotal
    · exact Sample.decodeList_reads.fits_must hSamples

end Usage

namespace NetworkUsage

theorem ofRow_eq_ok_iff {device received sent : Option Json} {u : NetworkUsage} :
    ofRow (Layout.rowOf layout.columns [device, received, sent]) = .ok u ↔
      required Meaning.text device u.device ∧
        required Meaning.samples received u.received ∧
          required Meaning.samples sent u.sent := by
  simp (disch := decide) only [layout, ofRow, bind_eq_ok_iff, pure_eq_ok_iff,
    Layout.get_rowOf_of_ne, Decoder.text_reads.get, Sample.decodeList_reads.get]
  constructor
  · rintro ⟨_, hDevice, _, hReceived, _, hSent, rfl⟩
    exact ⟨hDevice, hReceived, hSent⟩
  · rintro ⟨hDevice, hReceived, hSent⟩
    exact ⟨_, hDevice, _, hReceived, _, hSent, rfl⟩

theorem decode_reads : Reads decode Meaning.networkUsage := by
  intro j u
  refine (Layout.read_eq_ok_iff rfl (by decide)).trans ?_
  constructor
  · rintro ⟨_, hCells, hFits, hRead⟩
    simp only [layout, List.forall₂_cons_left_iff, List.forall₂_nil_left_iff] at hFits
    obtain ⟨device, _, _, ⟨received, _, _, ⟨sent, _, _, rfl, rfl⟩, rfl⟩, rfl⟩ := hFits
    obtain ⟨hDevice, hReceived, hSent⟩ := ofRow_eq_ok_iff.mp hRead
    exact .cells hCells hDevice hReceived hSent
  · rintro ⟨hCells, hDevice, hReceived, hSent⟩
    refine ⟨_, hCells, .cons ?_ (.cons ?_ (.cons ?_ .nil)),
      ofRow_eq_ok_iff.mpr ⟨hDevice, hReceived, hSent⟩⟩
    · exact Decoder.text_reads.fits_must hDevice
    · exact Sample.decodeList_reads.fits_must hReceived
    · exact Sample.decodeList_reads.fits_must hSent

end NetworkUsage

namespace NodeRecord

theorem ofRow_eq_ok_iff {name address cpu memory network : Option Json} {n : NodeRecord} :
    ofRow (Layout.rowOf layout.columns [name, address, cpu, memory, network]) = .ok n ↔
      required Meaning.text name n.name ∧
        optional (nullable Meaning.text) none address n.address ∧
          optional (nullable Meaning.usage) none cpu n.cpu ∧
            optional (nullable Meaning.usage) none memory n.memory ∧
              optional (nullable Meaning.networkUsage) none network n.network := by
  simp (disch := decide) only [layout, ofRow, bind_eq_ok_iff, pure_eq_ok_iff,
    Layout.getD_rowOf_of_ne, Decoder.text_reads.get, Decoder.text_reads.nullable.getD,
    Usage.decode_reads.nullable.getD, NetworkUsage.decode_reads.nullable.getD]
  constructor
  · rintro ⟨_, hName, _, hAddress, _, hCpu, _, hMemory, _, hNetwork, rfl⟩
    exact ⟨hName, hAddress, hCpu, hMemory, hNetwork⟩
  · rintro ⟨hName, hAddress, hCpu, hMemory, hNetwork⟩
    exact ⟨_, hName, _, hAddress, _, hCpu, _, hMemory, _, hNetwork, rfl⟩

theorem decode_reads : Reads decode Meaning.node := by
  intro j n
  refine (Layout.read_eq_ok_iff rfl (by decide)).trans ?_
  constructor
  · rintro ⟨_, hCells, hFits, hRead⟩
    simp only [layout, List.forall₂_cons_left_iff, List.forall₂_nil_left_iff] at hFits
    obtain ⟨name, _, _, ⟨address, _, _, ⟨cpu, _, _, ⟨memory, _, _, ⟨network, _, _, rfl, rfl⟩,
      rfl⟩, rfl⟩, rfl⟩, rfl⟩ := hFits
    obtain ⟨hName, hAddress, hCpu, hMemory, hNetwork⟩ := ofRow_eq_ok_iff.mp hRead
    exact .cells hCells hName hAddress hCpu hMemory hNetwork
  · rintro ⟨hCells, hName, hAddress, hCpu, hMemory, hNetwork⟩
    refine ⟨_, hCells, .cons ?_ (.cons ?_ (.cons ?_ (.cons ?_ (.cons ?_ .nil)))),
      ofRow_eq_ok_iff.mpr ⟨hName, hAddress, hCpu, hMemory, hNetwork⟩⟩
    · exact Decoder.text_reads.fits_must hName
    · exact Decoder.text_reads.nullable.fits_may hAddress
    · exact Usage.decode_reads.nullable.fits_may hCpu
    · exact Usage.decode_reads.nullable.fits_may hMemory
    · exact NetworkUsage.decode_reads.nullable.fits_may hNetwork

end NodeRecord

namespace Endpoint

theorem ofRow_eq_ok_iff {name latencies sent received : Option Json} {e : Endpoint} :
    ofRow (Layout.rowOf layout.columns [name, latencies, sent, received]) = .ok e ↔
      required Meaning.text name e.name ∧
        optional (Meaning.series Meaning.float) .standard latencies e.latencies ∧
          optional (Meaning.series Meaning.uint64) .standard sent e.sent ∧
            optional (Meaning.series Meaning.uint64) .standard received e.received := by
  have hLatencies := Series.decode_reads Decoder.float_reads
  have hCounters := Series.decode_reads Decoder.uint64_reads
  simp (disch := decide) only [layout, ofRow, bind_eq_ok_iff, pure_eq_ok_iff,
    Layout.getD_rowOf_of_ne, Decoder.text_reads.get, hLatencies.getD, hCounters.getD]
  constructor
  · rintro ⟨_, hName, _, hLatencies, _, hSent, _, hReceived, rfl⟩
    exact ⟨hName, hLatencies, hSent, hReceived⟩
  · rintro ⟨hName, hLatencies, hSent, hReceived⟩
    exact ⟨_, hName, _, hLatencies, _, hSent, _, hReceived, rfl⟩

theorem decode_reads : Reads decode Meaning.endpoint := by
  intro j e
  refine (Layout.read_eq_ok_iff rfl (by decide)).trans ?_
  constructor
  · rintro ⟨_, hCells, hFits, hRead⟩
    simp only [layout, List.forall₂_cons_left_iff, List.forall₂_nil_left_iff] at hFits
    obtain ⟨name, _, _, ⟨latencies, _, _, ⟨sent, _, _, ⟨received, _, _, rfl, rfl⟩, rfl⟩, rfl⟩,
      rfl⟩ := hFits
    obtain ⟨hName, hLatencies, hSent, hReceived⟩ := ofRow_eq_ok_iff.mp hRead
    exact .cells hCells hName hLatencies hSent hReceived
  · rintro ⟨hCells, hName, hLatencies, hSent, hReceived⟩
    refine ⟨_, hCells, .cons ?_ (.cons ?_ (.cons ?_ (.cons ?_ .nil))),
      ofRow_eq_ok_iff.mpr ⟨hName, hLatencies, hSent, hReceived⟩⟩
    · exact Decoder.text_reads.fits_must hName
    · exact (Series.decode_reads Decoder.float_reads).fits_may hLatencies
    · exact (Series.decode_reads Decoder.uint64_reads).fits_may hSent
    · exact (Series.decode_reads Decoder.uint64_reads).fits_may hReceived

end Endpoint

namespace EndpointMap

def Entry (f : String × Json) (e : String × Endpoint) : Prop :=
  e.1 = f.1 ∧ Meaning.endpoint f.2 e.2

variable {fields : List (String × Json)} {entries : List (String × Endpoint)}

theorem decodeEntries_eq_ok_iff :
    decodeEntries fields = .ok entries ↔ List.Forall₂ Entry fields entries := by
  induction fields generalizing entries with
  | nil => simp [decodeEntries, eq_comm]
  | cons f rest ih =>
    simp only [decodeEntries, bind_eq_ok_iff, pure_eq_ok_iff, ih, List.forall₂_cons_left_iff,
      Endpoint.decode_reads f.2 _]
    constructor
    · rintro ⟨e, hEndpoint, es, hRest, rfl⟩
      exact ⟨(f.1, e), es, ⟨rfl, hEndpoint⟩, hRest, rfl⟩
    · rintro ⟨⟨_, e⟩, es, ⟨rfl, hEndpoint⟩, hRest, rfl⟩
      exact ⟨e, hEndpoint, es, hRest, rfl⟩

theorem exists_entries (h : ∀ f ∈ fields, ∃ e, Meaning.endpoint f.2 e) :
    ∃ entries, List.Forall₂ Entry fields entries := by
  induction fields with
  | nil => exact ⟨[], .nil⟩
  | cons f rest ih =>
    rw [List.forall_mem_cons] at h
    obtain ⟨⟨e, hEndpoint⟩, hRest⟩ := h
    obtain ⟨es, hEntries⟩ := ih hRest
    exact ⟨(f.1, e) :: es, .cons ⟨rfl, hEndpoint⟩ hEntries⟩

theorem endpoint_of_member (h : List.Forall₂ Entry fields entries) :
    ∀ f ∈ fields, ∃ e, Meaning.endpoint f.2 e := by
  induction h with
  | nil => exact nofun
  | @cons _ e _ _ hEntry _ ih => exact List.forall_mem_cons.mpr ⟨⟨e.2, hEntry.2⟩, ih⟩

theorem find?_entries (h : List.Forall₂ Entry fields entries) (key : String) (e : Endpoint) :
    (entries.find? fun x => x.1 == key).map (·.2) = some e ↔
      ∃ j, (fields.find? fun f => f.1 == key).map (·.2) = some j ∧ Meaning.endpoint j e := by
  induction h with
  | nil => simp
  | @cons f x _ _ hEntry _ ih =>
    obtain ⟨hKey, hEndpoint⟩ := hEntry
    rw [List.find?_cons, List.find?_cons, hKey]
    cases f.1 == key with
    | false => exact ih
    | true =>
      constructor
      · intro hFound
        cases hFound
        exact ⟨f.2, rfl, hEndpoint⟩
      · rintro ⟨_, ⟨⟩, hOther⟩
        exact congrArg some (Endpoint.decode_reads.unique hEndpoint hOther)

theorem find?_ofEntries (h : List.Forall₂ Entry fields entries) (key : String) (e : Endpoint) :
    (Keyed.ofList entries).find? key = some e ↔
      ∃ j, Meaning.lastMember? fields key = some j ∧ Meaning.endpoint j e := by
  -- Later members replace earlier ones, so both sides are searched from the end.
  rw [Keyed.find?_ofList]
  exact find?_entries (List.forall₂_reverse_iff.mpr h) key e

theorem decode_reads : Reads decode Meaning.endpointMap := by
  intro j m
  constructor
  · intro hRead
    cases j with
    | obj fields =>
      obtain ⟨entries, hDecoded, rfl⟩ := map_eq_ok_iff.mp hRead
      have hEntries := decodeEntries_eq_ok_iff.mp hDecoded
      exact .members (endpoint_of_member hEntries) (find?_ofEntries hEntries)
    | null | bool | num | str | arr => cases hRead
  · rintro @⟨fields, m, hMembers, hFound⟩
    obtain ⟨entries, hEntries⟩ := exists_entries hMembers
    refine map_eq_ok_iff.mpr ⟨entries, decodeEntries_eq_ok_iff.mpr hEntries, ?_⟩
    refine Keyed.ext_find? fun key => Option.ext fun e => ?_
    rw [find?_ofEntries hEntries, hFound]

end EndpointMap

end GatewayTelemetry
