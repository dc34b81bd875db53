import GatewayTelemetry.Proofs.Record.Kind

/-! # The canonical form of a record

What a valid record is written as reads as that record, provided that its doubles are finite and its
series have the standard capacity. An accepted record is always like that. So reading a value and
writing the record puts the value into normal form. Main statement: the normal form is canonical,
is its own normal form, and is shared by exactly the values that read alike.
-/

namespace GatewayTelemetry

structure Endpoint.Regular (e : Endpoint) : Prop where
  dated : e.Dated
  measured : e.measured = true

namespace RecordKind

def Regular : (k : RecordKind) → k.Record → Prop
  | usage _, (u : Usage) => u.Finite
  | network, (u : NetworkUsage) => u.Finite
  | node, (n : NodeRecord) => n.Finite
  | endpoint, (e : Endpoint) => e.Regular
  | endpointMap, (m : EndpointMap) => ∀ e ∈ m.entries, e.2.Regular

theorem decode_encode (k : RecordKind) {r : k.Record} (h : k.Regular r) :
    k.decode (k.encode r) = .ok r := by
  cases k with
  | usage resource => exact Usage.decode_encode resource h
  | network => exact NetworkUsage.decode_encode h
  | node => exact NodeRecord.decode_encode h
  | endpoint =>
    obtain ⟨hDated, hMeasured⟩ : Endpoint.Regular r := h
    exact (Endpoint.decode_encode hDated).trans (if_pos hMeasured)
  | endpointMap =>
    have hEntries : ∀ e ∈ r.entries, e.2.Regular := h
    have hMeasured : r.measured = true :=
      List.all_eq_true.mpr fun e he => (hEntries e he).measured
    exact (EndpointMap.decode_encode fun e he => (hEntries e he).dated).trans (if_pos hMeasured)

theorem ofFields_encode (k : RecordKind) {r : k.Record} (hValid : k.validate r = .ok ())
    (h : k.Regular r) : k.ofFields (k.encode r) = .ok r :=
  (k.ofFields_eq_ok_iff _ r).mpr ⟨k.decode_encode h, hValid⟩

end RecordKind

namespace Meaning

variable {α : Type} {value : Meaning α} {p : α → Prop} {j : Json}

theorem nullable.forall (hValue : ∀ j a, value j a → p a) {o : Option α} (h : nullable value j o) :
    ∀ a ∈ o, p a := by
  cases h with
  | null => exact nofun
  | given _ h =>
    rintro _ ⟨⟩
    exact hValue _ _ h

theorem optional.of_value {default a : α} (hDefault : p default) (hValue : ∀ j a, value j a → p a)
    {cell : Option Json} (h : optional value default cell a) : p a := by
  cases h with
  | absent => exact hDefault
  | given h => exact hValue _ _ h

theorem samples.finite {l : List Sample} (h : samples j l) : ∀ s ∈ l, s.Finite := by
  refine h.forall ?_
  rintro _ _ ⟨hTime, hValue⟩
  exact ⟨hTime.isFinite, hValue.isFinite⟩

theorem usage.finite {u : Usage} (h : usage j u) : u.Finite := by
  obtain ⟨_, _, ⟨hSamples⟩⟩ := h
  exact hSamples.finite

theorem networkUsage.finite {u : NetworkUsage} (h : networkUsage j u) : u.Finite := by
  obtain ⟨_, _, ⟨hReceived⟩, ⟨hSent⟩⟩ := h
  exact ⟨hReceived.finite, hSent.finite⟩

theorem node.finite {n : NodeRecord} (h : node j n) : n.Finite := by
  obtain ⟨_, _, _, hCpu, hMemory, hNetwork⟩ := h
  have hUsage : ∀ j o, nullable usage j o → ∀ u ∈ o, u.Finite :=
    fun _ _ => nullable.forall (p := Usage.Finite) fun _ _ => usage.finite
  have hNetworkUsage : ∀ j o, nullable networkUsage j o → ∀ u ∈ o, u.Finite :=
    fun _ _ => nullable.forall (p := NetworkUsage.Finite) fun _ _ => networkUsage.finite
  exact ⟨hCpu.of_value nofun hUsage, hMemory.of_value nofun hUsage,
    hNetwork.of_value nofun hNetworkUsage⟩

theorem series.dated {s : Series α} (h : series value j s) : s.Dated where
  capacity_eq := h.capacity_eq
  finite := by
    refine h.points.forall ?_
    rintro _ _ ⟨hTime, _⟩
    exact hTime.isFinite

theorem series.measured {s : Series Float} (h : series float j s) :
    (s.points.all fun q => q.2.isFinite) = true := by
  refine List.all_eq_true.mpr (h.points.forall ?_)
  rintro _ _ ⟨_, hValue⟩
  exact hValue.isFinite

theorem endpoint.regular {e : Endpoint} (h : endpoint j e) : e.Regular := by
  obtain ⟨_, _, hLatencies, hSent, hReceived⟩ := h
  constructor
  · exact ⟨hLatencies.of_value Series.dated_standard fun _ _ => series.dated,
      hSent.of_value Series.dated_standard fun _ _ => series.dated,
      hReceived.of_value Series.dated_standard fun _ _ => series.dated⟩
  · exact hLatencies.of_value (p := fun s => (s.points.all fun q => q.2.isFinite) = true) rfl
      fun _ _ => series.measured

theorem endpointMap.regular {m : EndpointMap} (h : endpointMap j m) :
    ∀ e ∈ m.entries, e.2.Regular := by
  rintro ⟨key, e⟩ he
  obtain ⟨_, hEntries⟩ := h
  obtain ⟨_, _, hEndpoint⟩ := (hEntries key e).mp ((m.find?_eq_some_iff key e).mpr he)
  exact hEndpoint.regular

end Meaning

namespace RecordKind

theorem regular_of_schema (k : RecordKind) {j : Json} {r : k.Record} (h : k.Schema j r) :
    k.Regular r := by
  cases k with
  | usage => exact Meaning.usage.finite h
  | network => exact Meaning.networkUsage.finite h
  | node => exact Meaning.node.finite h
  | endpoint => exact Meaning.endpoint.regular h
  | endpointMap => exact Meaning.endpointMap.regular h

theorem regular_of_accepted (k : RecordKind) {j : Json} {r : k.Record} (h : k.ofFields j = .ok r) :
    k.Regular r :=
  k.regular_of_schema ((k.decode_reads j r).mp ((k.ofFields_eq_ok_iff j r).mp h).1)

theorem validate_of_accepted (k : RecordKind) {j : Json} {r : k.Record}
    (h : k.ofFields j = .ok r) : k.validate r = .ok () := ((k.ofFields_eq_ok_iff j r).mp h).2

end RecordKind

namespace Json

/-- Members of objects are in ascending key order throughout, and no key occurs twice. -/
def Canonical (j : Json) : Prop := j.canonical = j

@[simp]
theorem canonical_str (s : String) : (Json.str s).Canonical := by rw [Canonical, canonical]

@[simp]
theorem canonical_num (n : Number) : (Json.num n).Canonical := by rw [Canonical, canonical]

@[simp]
theorem canonical_ofInt64 (n : Int64) : (ofInt64 n).Canonical := canonical_num _

@[simp]
theorem canonical_ofUInt64 (n : UInt64) : (ofUInt64 n).Canonical := canonical_num _

@[simp]
theorem canonical_ofFloat (x : Float) : (ofFloat x).Canonical := by
  unfold Canonical ofFloat
  split <;> simp only [canonical]

theorem canonical_ofOption {α : Type} {encode : α → Json} (h : ∀ a, (encode a).Canonical)
    (o : Option α) : (ofOption encode o).Canonical := by
  cases o with
  | none => simp only [Canonical, ofOption, canonical]
  | some a => exact h a

theorem canonical_arr {items : List Json} (h : ∀ j ∈ items, j.Canonical) :
    (Json.arr items).Canonical := by
  have hItems : canonicalItems items = items := by
    induction items with
    | nil => rfl
    | cons j rest ih =>
      rw [List.forall_mem_cons] at h
      rw [canonicalItems, h.1, ih h.2]
  rw [Canonical, canonical, hItems]

theorem addMember_first {k : String} {v : Json} {fields : List (String × Json)}
    (h : ∀ f ∈ fields, k < f.1) : addMember k v fields = (k, v) :: fields := by
  cases fields with
  | nil => rfl
  | cons f rest => rw [addMember, if_pos (h f List.mem_cons_self)]

theorem canonical_obj {fields : List (String × Json)}
    (hOrdered : (fields.map (·.1)).Pairwise (· < ·)) (h : ∀ f ∈ fields, f.2.Canonical) :
    (Json.obj fields).Canonical := by
  have hFields : canonicalFields fields = fields := by
    induction fields with
    | nil => rfl
    | cons f rest ih =>
      rw [List.map_cons, List.pairwise_cons, List.forall_mem_map] at hOrdered
      rw [List.forall_mem_cons] at h
      rw [canonicalFields, h.1, ih hOrdered.2 h.2, addMember_first hOrdered.1]
  rw [Canonical, canonical, hFields]

end Json

open Json (canonical_arr canonical_obj canonical_ofOption canonical_str canonical_ofUInt64
  canonical_ofFloat)

theorem Sample.canonical_encodeList (samples : List Sample) : (encodeList samples).Canonical := by
  apply canonical_arr
  rw [List.forall_mem_map]
  intro s _
  apply canonical_arr
  simp

theorem Series.canonical_encode {α : Type} {encode : α → Json} (h : ∀ a, (encode a).Canonical)
    (s : Series α) : (s.encode encode).Canonical := by
  apply canonical_arr
  rw [List.forall_mem_map]
  intro q _
  apply canonical_arr
  simp [h]

theorem Usage.canonical_encode (u : Usage) : u.encode.Canonical := by
  apply canonical_obj
  · show ["total", "usages"].Pairwise (· < ·)
    decide
  · simp [Sample.canonical_encodeList]

theorem NetworkUsage.canonical_encode (u : NetworkUsage) : u.encode.Canonical := by
  apply canonical_obj
  · show ["device", "rx_bytes", "tx_bytes"].Pairwise (· < ·)
    decide
  · simp [Sample.canonical_encodeList]

theorem NodeRecord.canonical_encode (n : NodeRecord) : n.encode.Canonical := by
  apply canonical_obj
  · show ["cpu_metric", "instance", "memory_metric", "name", "network_metric"].Pairwise (· < ·)
    decide
  · simp [canonical_ofOption canonical_str, canonical_ofOption Usage.canonical_encode,
      canonical_ofOption NetworkUsage.canonical_encode]

theorem Endpoint.canonical_encode (e : Endpoint) : e.encode.Canonical := by
  apply canonical_obj
  · show ["latencies", "name", "rx_bytes", "tx_bytes"].Pairwise (· < ·)
    decide
  · simp [Series.canonical_encode canonical_ofFloat, Series.canonical_encode canonical_ofUInt64]

theorem EndpointMap.canonical_encode (m : EndpointMap) : (encode m).Canonical := by
  apply canonical_obj
  · rw [List.map_map, List.pairwise_map]
    exact m.ordered
  · rw [List.forall_mem_map]
    intro e _
    exact e.2.canonical_encode

namespace RecordKind

theorem canonical_encode (k : RecordKind) (r : k.Record) : (k.encode r).Canonical := by
  cases k with
  | usage => exact Usage.canonical_encode r
  | network => exact NetworkUsage.canonical_encode r
  | node => exact NodeRecord.canonical_encode r
  | endpoint => exact Endpoint.canonical_encode r
  | endpointMap => exact EndpointMap.canonical_encode r

def normalize (k : RecordKind) (j : Json) : Except RecordError Json := (k.ofFields j).map k.encode

theorem ofFields_encode_of_accepted (k : RecordKind) {j : Json} {r : k.Record}
    (h : k.ofFields j = .ok r) : k.ofFields (k.encode r) = .ok r :=
  k.ofFields_encode (k.validate_of_accepted h) (k.regular_of_accepted h)

theorem encode_inj_of_accepted (k : RecordKind) {i j : Json} {q r : k.Record}
    (hFirst : k.ofFields i = .ok q) (hSecond : k.ofFields j = .ok r)
    (h : k.encode q = k.encode r) : q = r := by
  have hBack := k.ofFields_encode_of_accepted hFirst
  rw [h, k.ofFields_encode_of_accepted hSecond] at hBack
  exact (Except.ok.inj hBack).symm

theorem normalize_eq_iff (k : RecordKind) {j : Json} {r : k.Record} (h : k.ofFields j = .ok r)
    (i : Json) : k.normalize i = .ok (k.encode r) ↔ k.ofFields i = .ok r := by
  rw [normalize, map_eq_ok_iff]
  constructor
  · rintro ⟨q, hRead, hSame⟩
    rw [hRead, k.encode_inj_of_accepted hRead h hSame]
  · exact fun hRead => ⟨r, hRead, rfl⟩

theorem normal_form (k : RecordKind) {j : Json} {r : k.Record} (h : k.ofFields j = .ok r) :
    k.normalize j = .ok (k.encode r) ∧ (k.encode r).Canonical ∧
      k.ofFields (k.encode r) = .ok r ∧ k.normalize (k.encode r) = .ok (k.encode r) ∧
        ∀ i, k.normalize i = k.normalize j ↔ k.ofFields i = k.ofFields j := by
  have hBack := k.ofFields_encode_of_accepted h
  have hNormal : k.normalize j = .ok (k.encode r) := (k.normalize_eq_iff h j).mpr h
  refine ⟨hNormal, k.canonical_encode r, hBack, (k.normalize_eq_iff h _).mpr hBack, fun i => ?_⟩
  rw [hNormal, h]
  exact k.normalize_eq_iff h i

/-- A node by position: a null for its address, integers for doubles, two usages left out. -/
def positional : Json :=
  .arr [.str "worker-1", .null, .arr [.ofInt64 4, .arr [.arr [.ofInt64 1700000000, .ofInt64 1]]]]

def positionalNode : NodeRecord :=
  ⟨"worker-1", none, some ⟨4, [(.ofInt 1700000000, .ofInt 1)]⟩, none, none⟩

theorem normal_form_positional :
    node.ofFields positional = .ok positionalNode ∧
      node.ofFields positionalNode.encode = .ok positionalNode ∧
        node.normalize positional = .ok positionalNode.encode ∧
          node.normalize positionalNode.encode = .ok positionalNode.encode := by
  have hRead : node.ofFields positional = .ok positionalNode := rfl
  obtain ⟨hNormal, _, hBack, hStable, _⟩ := normal_form node hRead
  exact ⟨hRead, hBack, hNormal, hStable⟩

end RecordKind

end GatewayTelemetry
