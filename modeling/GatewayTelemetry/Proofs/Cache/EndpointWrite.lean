import GatewayTelemetry.Proofs.Cache.Write
import GatewayTelemetry.Proofs.Series

/-! # What an operation does to one endpoint

Four operations write to an endpoint, each at most one point to every series and all at one
timestamp. Such a write is accepted when the timestamp is finite, and then it makes the entry if
there is none. Three operations remove an endpoint, and no others touch it.
-/

namespace GatewayTelemetry

namespace Cache

structure EndpointWrite where
  endpoint : String
  timestamp : Float
  latency : Option Float
  sent : Option UInt64
  received : Option UInt64

namespace EndpointWrite

def latencyPoint (w : EndpointWrite) : Option (Float × Float) := w.latency.map (w.timestamp, ·)

def sentPoint (w : EndpointWrite) : Option (Float × UInt64) := w.sent.map (w.timestamp, ·)

def receivedPoint (w : EndpointWrite) : Option (Float × UInt64) := w.received.map (w.timestamp, ·)

def onto (w : EndpointWrite) (e : Endpoint) : Endpoint :=
  { e with
    latencies := e.latencies.pushPoint w.latencyPoint
    sent := e.sent.pushPoint w.sentPoint
    received := e.received.pushPoint w.receivedPoint }

def refusal (w : EndpointWrite) : RecordError := .timestampNotFinite w.timestamp

def DoneBy (w : EndpointWrite) (append : Endpoint → Except RecordError Endpoint) : Prop :=
  ∀ e, append e = if w.timestamp.isFinite then .ok (w.onto e) else .error w.refusal

theorem DoneBy.latency (endpoint : String) (value timestamp : Float) :
    DoneBy ⟨endpoint, timestamp, some value, none, none⟩ (·.appendLatency value timestamp) := by
  intro e
  show e.appendLatency value timestamp = _
  rw [Endpoint.appendLatency, Series.append]
  cases timestamp.isFinite <;> rfl

theorem DoneBy.sent (endpoint : String) (value : UInt64) (timestamp : Float) :
    DoneBy ⟨endpoint, timestamp, none, some value, none⟩ (·.appendSent value timestamp) := by
  intro e
  show e.appendSent value timestamp = _
  rw [Endpoint.appendSent, Series.append]
  cases timestamp.isFinite <;> rfl

theorem DoneBy.received (endpoint : String) (value : UInt64) (timestamp : Float) :
    DoneBy ⟨endpoint, timestamp, none, none, some value⟩ (·.appendReceived value timestamp) := by
  intro e
  show e.appendReceived value timestamp = _
  rw [Endpoint.appendReceived, Series.append]
  cases timestamp.isFinite <;> rfl

end EndpointWrite

namespace Operation

def write? : Operation → Option EndpointWrite
  | appendLatency e v t => some ⟨e, t, some v, none, none⟩
  | appendSent e v t => some ⟨e, t, none, some v, none⟩
  | appendReceived e v t => some ⟨e, t, none, none, some v⟩
  | record e s => some ⟨e, s.timestamp, s.latency, some s.sent, some s.received⟩
  | _ => none

def removes (e : String) : Operation → Bool
  | deleteEndpoint name => name == e
  | clearEndpoints | clear => true
  | _ => false

theorem write?_not_empty {op : Operation} {w : EndpointWrite} (h : op.write? = some w) :
    w.latencyPoint.isSome ∨ w.sentPoint.isSome ∨ w.receivedPoint.isSome := by
  cases op <;> cases h
  · exact .inl rfl
  · exact .inr (.inl rfl)
  · exact .inr (.inr rfl)
  · exact .inr (.inl rfl)

end Operation

def putEndpoint (c : Cache) (w : EndpointWrite) : Cache :=
  { c with
    endpoints := c.endpoints.insert w.endpoint
      (w.onto ((c.endpoint? w.endpoint).getD (.fresh w.endpoint))) }

theorem writeEndpoint_eq (c : Cache) {w : EndpointWrite}
    {append : Endpoint → Except RecordError Endpoint} (h : w.DoneBy append) :
    c.writeEndpoint w.endpoint append =
      if w.timestamp.isFinite then .ok (c.putEndpoint w) else .error (.record w.refusal) := by
  rw [writeEndpoint, h, EndpointMap.entry_eq]
  by_cases hFinite : w.timestamp.isFinite = true
  · rw [if_pos hFinite, if_pos hFinite]
    rfl
  · rw [if_neg hFinite, if_neg hFinite]

theorem appendSample_eq (s : EndpointSample) (e : Endpoint) :
    appendSample s e =
      if s.timestamp.isFinite then
        .ok (EndpointWrite.onto ⟨e.name, s.timestamp, s.latency, some s.sent, some s.received⟩ e)
      else .error (.timestampNotFinite s.timestamp) := by
  by_cases hFinite : s.timestamp.isFinite = true
  · cases hLatency : s.latency <;>
      simp [appendSample, Endpoint.appendReceived, Endpoint.appendSent, Endpoint.appendLatency,
        Series.append, hFinite, hLatency, EndpointWrite.onto, EndpointWrite.latencyPoint,
        EndpointWrite.sentPoint, EndpointWrite.receivedPoint, Series.pushPoint, bind, Except.bind,
        pure, Except.pure]
  · simp [appendSample, hFinite, bind, Except.bind]

theorem record_eq (c : Cache) (name : String) (s : EndpointSample) :
    c.record name s =
      if s.timestamp.isFinite then
        .ok (c.putEndpoint ⟨name, s.timestamp, s.latency, some s.sent, some s.received⟩,
          (c.endpoint? name).isNone)
      else .error (.record (.timestampNotFinite s.timestamp)) := by
  have hWrite := c.writeEndpoint_eq
    (w := ⟨name, s.timestamp, s.latency, some s.sent, some s.received⟩) (appendSample_eq s)
  rw [record, hWrite, EndpointMap.entry_eq]
  by_cases hFinite : s.timestamp.isFinite = true
  · rw [if_pos hFinite, if_pos hFinite]
    rfl
  · rw [if_neg hFinite, if_neg hFinite]
    rfl

theorem isFinite_of_record {c : Cache} {name : String} {s : EndpointSample} {r : Cache × Bool}
    (h : c.record name s = .ok r) : s.timestamp.isFinite = true := by
  by_contra hInfinite
  rw [record_eq, if_neg hInfinite] at h
  cases h

def Lands (c : Cache) (w : EndpointWrite) (outcome : Cache × Except AgentError Answer) : Prop :=
  (w.timestamp.isFinite = true ∧ outcome.1 = c.putEndpoint w ∧ outcome.2.isOk = true) ∨
    (w.timestamp.isFinite = false ∧ outcome = (c, .error (.record w.refusal)))

theorem settle_lands (c : Cache) {w : EndpointWrite}
    {append : Endpoint → Except RecordError Endpoint} (h : w.DoneBy append) :
    c.Lands w (c.settle (c.writeEndpoint w.endpoint append)) := by
  rw [writeEndpoint_eq c h, Lands]
  cases w.timestamp.isFinite with
  | true => exact .inl ⟨rfl, rfl, rfl⟩
  | false => exact .inr ⟨rfl, rfl⟩

theorem apply_write (c : Cache) {op : Operation} {w : EndpointWrite} (h : op.write? = some w) :
    c.Lands w (c.apply op) := by
  cases op with
  | appendLatency e v t =>
    cases h
    rw [apply_appendLatency]
    exact c.settle_lands (.latency e v t)
  | appendSent e v t =>
    cases h
    rw [apply_appendSent]
    exact c.settle_lands (.sent e v t)
  | appendReceived e v t =>
    cases h
    rw [apply_appendReceived]
    exact c.settle_lands (.received e v t)
  | record e s =>
    cases h
    rw [apply_record, record_eq, Lands]
    cases s.timestamp.isFinite with
    | true => exact .inl ⟨rfl, rfl, rfl⟩
    | false => exact .inr ⟨rfl, rfl⟩
  | upsert | node | count | nodes | setAddress | setCpu | setMemory | setNetwork | reconcile
  | endpoint | deleteEndpoint | clearEndpoints | endpoints | clear => cases h

namespace Operation

variable {op : Operation} {e : String} {w : EndpointWrite}

def writeTo? (e : String) (op : Operation) : Option EndpointWrite :=
  op.write?.bind fun w => if w.endpoint = e then some w else none

theorem writeTo?_eq_some_iff : op.writeTo? e = some w ↔ op.write? = some w ∧ w.endpoint = e := by
  rw [writeTo?, Option.bind_eq_some_iff]
  constructor
  · rintro ⟨v, hWrite, hName⟩
    obtain ⟨hSame, hSome⟩ := Option.ite_none_right_eq_some.mp hName
    cases hSome
    exact ⟨hWrite, hSame⟩
  · rintro ⟨hWrite, hSame⟩
    exact ⟨w, hWrite, if_pos hSame⟩

theorem writeTo?_of_ne (h : op.write? = some w) (hName : e ≠ w.endpoint) :
    op.writeTo? e = none := by
  rw [writeTo?, h, Option.bind_some, if_neg (Ne.symm hName)]

theorem not_removes_of_write (h : op.write? = some w) (e : String) : op.removes e = false := by
  cases op with
  | appendLatency | appendSent | appendReceived | record => rfl
  | upsert | node | count | nodes | setAddress | setCpu | setMemory | setNetwork | reconcile
  | endpoint | deleteEndpoint | clearEndpoints | endpoints | clear => cases h

end Operation

theorem settle_modifyNode_endpoints (c : Cache) (name : String) (f : NodeRecord → NodeRecord) :
    (c.settle (c.modifyNode name f)).1.endpoints = c.endpoints := by
  unfold modifyNode
  cases modifyFirst name f c.nodes <;> rfl

theorem apply_endpoints_of_not_write (c : Cache) {op : Operation} (h : op.write? = none) :
    (c.apply op).1.endpoints = match op with
      | .deleteEndpoint name => c.endpoints.erase name
      | .clearEndpoints | .clear => ∅
      | _ => c.endpoints := by
  cases op with
  | setAddress | setCpu | setMemory | setNetwork => exact settle_modifyNode_endpoints c _ _
  | upsert name =>
    show (c.upsert name).1.endpoints = c.endpoints
    unfold upsert
    cases c.node? name <;> rfl
  | appendLatency | appendSent | appendReceived | record => cases h
  | node | count | nodes | reconcile | endpoint | deleteEndpoint | clearEndpoints | endpoints
  | clear => rfl

theorem apply_endpoints_congr {c d : Cache} (h : c.endpoints = d.endpoints) (op : Operation) :
    (c.apply op).1.endpoints = (d.apply op).1.endpoints := by
  cases hWrite : op.write? with
  | none => rw [apply_endpoints_of_not_write c hWrite, apply_endpoints_of_not_write d hWrite, h]
  | some w =>
    have hPut : (c.putEndpoint w).endpoints = (d.putEndpoint w).endpoints := by
      simp only [putEndpoint, endpoint?, h]
    rcases c.apply_write hWrite with ⟨hFinite, hCache, _⟩ | ⟨hInfinite, hCache⟩ <;>
      rcases d.apply_write hWrite with ⟨hFinite', hCache', _⟩ | ⟨hInfinite', hCache'⟩
    · rw [hCache, hCache', hPut]
    · simp_all
    · simp_all
    · rw [hCache, hCache', h]

theorem applyAll_endpoints_congr {c d : Cache} (h : c.endpoints = d.endpoints)
    (history : List Operation) : (c.applyAll history).endpoints = (d.applyAll history).endpoints := by
  induction history generalizing c d with
  | nil => exact h
  | cons op rest ih => exact ih (apply_endpoints_congr h op)

theorem endpoint?_apply (c : Cache) (op : Operation) (e : String) :
    (c.apply op).1.endpoint? e =
      if op.removes e then none
      else
        match op.writeTo? e with
        | some w =>
          if (c.apply op).2.isOk then some (w.onto ((c.endpoint? e).getD (.fresh e)))
          else c.endpoint? e
        | none => c.endpoint? e := by
  cases hWrite : op.write? with
  | none =>
    have hOther : op.writeTo? e = none := by simp [Operation.writeTo?, hWrite]
    rw [hOther, endpoint?, apply_endpoints_of_not_write c hWrite]
    cases op with
    | deleteEndpoint name =>
      by_cases hName : e = name
      · simp [Operation.removes, hName]
      · simp [Operation.removes, hName, Ne.symm hName, endpoint?]
    | clearEndpoints | clear => rfl
    | appendLatency | appendSent | appendReceived | record => cases hWrite
    | upsert | node | count | nodes | setAddress | setCpu | setMemory | setNetwork | reconcile
    | endpoint | endpoints => rfl
  | some w =>
    rw [Operation.not_removes_of_write hWrite e, if_neg Bool.false_ne_true]
    rcases c.apply_write hWrite with ⟨_, hCache, hOk⟩ | ⟨_, hApply⟩
    · rw [hCache, endpoint?, putEndpoint, Keyed.find?_insert]
      by_cases hName : e = w.endpoint
      · rw [if_pos hName, Operation.writeTo?_eq_some_iff.mpr ⟨hWrite, hName.symm⟩, hName]
        exact (if_pos hOk).symm
      · rw [if_neg hName, Operation.writeTo?_of_ne hWrite hName]
        rfl
    · rw [hApply]
      cases op.writeTo? e <;> rfl

end Cache

end GatewayTelemetry
