import GatewayTelemetry.Cache.Operation
import GatewayTelemetry.Proofs.Keyed

/-! # Writes in place

An endpoint is written to in place, so a failure could leave a new entry behind, or some of the
series one point ahead of the others. Neither happens: the entry is taken back, and the timestamp
is looked at before the first series. What is left is what the write gives as a whole.
-/

namespace GatewayTelemetry

namespace Keyed

variable {α : Type} {m : Keyed α} {k : String}

theorem erase_insert_of_missing (h : m.find? k = none) (v : α) : (m.insert k v).erase k = m := by
  apply ext_find?
  intro j
  rw [find?_erase, find?_insert]
  by_cases hKey : j = k
  · rw [if_pos hKey, hKey, h]
  · rw [if_neg hKey, if_neg hKey]

theorem insert_of_find? {v : α} (h : m.find? k = some v) : m.insert k v = m := by
  apply ext_find?
  intro j
  rw [find?_insert]
  by_cases hKey : j = k
  · rw [if_pos hKey, hKey, h]
  · rw [if_neg hKey]

end Keyed

theorem EndpointMap.entry_eq (m : EndpointMap) (name : String) :
    EndpointMap.entry m name = ((m.find? name).getD (.fresh name), (m.find? name).isNone) := by
  unfold entry
  cases m.find? name <;> rfl

namespace EndpointWork

/-- The work leaves on every endpoint what the function gives, and on a failure the endpoint. -/
def Does (work : EndpointWork Unit) (f : Endpoint → Except RecordError Endpoint) : Prop :=
  ∀ e, work.run.run e =
    match f e with
    | .ok e' => (.ok (), e')
    | .error error => (.error error, e)

theorem append_does (f : Endpoint → Except RecordError Endpoint) : (append f).Does f := by
  intro e
  show (match f e with
    | .ok e' => (set e' : EndpointWork Unit)
    | .error error => throw error).run.run e = _
  cases f e <;> rfl

theorem bind_run (work next : EndpointWork Unit) (e : Endpoint) :
    (work >>= fun _ => next).run.run e =
      match work.run.run e with
      | (.ok (), e') => next.run.run e'
      | (.error error, e') => (.error error, e') := by
  rw [ExceptT.run_bind, StateT.run_bind]
  rcases work.run.run e with ⟨_ | _, e'⟩ <;> rfl

end EndpointWork

namespace Cache

def writeEndpoint (c : Cache) (name : String)
    (append : Endpoint → Except RecordError Endpoint) : Except AgentError Cache :=
  match append (EndpointMap.entry c.endpoints name).1 with
  | .ok e => .ok { c with endpoints := c.endpoints.insert name e }
  | .error e => .error (.record e)

def appendSample (s : EndpointSample) (e : Endpoint) : Except RecordError Endpoint := do
  if !s.timestamp.isFinite then .error (.timestampNotFinite s.timestamp)
  let e ← e.appendReceived s.received s.timestamp
  let e ← e.appendSent s.sent s.timestamp
  match s.latency with
  | some latency => e.appendLatency latency s.timestamp
  | none => return e

def record (c : Cache) (name : String) (s : EndpointSample) : Except AgentError (Cache × Bool) :=
  (c.writeEndpoint name (appendSample s)).map fun c' =>
    (c', (EndpointMap.entry c.endpoints name).2)

/-- Behind the check of the timestamp no append can fail, so none is made without the others. -/
theorem sample_does (s : EndpointSample) : s.work.Does (appendSample s) := by
  intro e
  cases hFinite : s.timestamp.isFinite with
  | false =>
    have hChecked : appendSample s e = .error (.timestampNotFinite s.timestamp) := by
      simp [appendSample, hFinite, bind, Except.bind]
    rw [hChecked, EndpointSample.work, hFinite]
    exact EndpointWork.bind_run (throw _) _ e
  | true =>
    have hReceived : ∀ e : Endpoint, e.appendReceived s.received s.timestamp =
        .ok { e with received := e.received.push s.received s.timestamp } := fun e => by
      rw [Endpoint.appendReceived, Series.append, if_pos hFinite]
    have hSent : ∀ e : Endpoint, e.appendSent s.sent s.timestamp =
        .ok { e with sent := e.sent.push s.sent s.timestamp } := fun e => by
      rw [Endpoint.appendSent, Series.append, if_pos hFinite]
    have hLatency : ∀ (e : Endpoint) (latency : Float), e.appendLatency latency s.timestamp =
        .ok { e with latencies := e.latencies.push latency s.timestamp } := fun e latency => by
      rw [Endpoint.appendLatency, Series.append, if_pos hFinite]
    rw [EndpointSample.work, appendSample, hFinite]
    cases s.latency with
    | some latency =>
      simp only [Bool.not_true, Bool.false_eq_true, if_false, EndpointWork.bind_run,
        EndpointWork.append_does _ _, hReceived, hSent, hLatency]
      rfl
    | none =>
      simp only [Bool.not_true, Bool.false_eq_true, if_false, EndpointWork.bind_run,
        EndpointWork.append_does _ _, hReceived, hSent]
      rfl

variable (c : Cache) (name : String)

/-- What work leaves that either does all or nothing: an entry made for it is taken back, and one
that was there is put back as it was. -/
theorem editEndpoint_eq {work : EndpointWork Unit} {f : Endpoint → Except RecordError Endpoint}
    (h : work.Does f) :
    c.editEndpoint name work =
      match c.writeEndpoint name f with
      | .ok c' => (c', .ok (EndpointMap.entry c.endpoints name).2)
      | .error e => (c, .error e) := by
  rw [editEndpoint, writeEndpoint, EndpointMap.entry_eq]
  dsimp only
  rw [h]
  cases f ((c.endpoints.find? name).getD (.fresh name)) with
  | ok e => rfl
  | error e =>
    cases hEntry : c.endpoints.find? name with
    | none =>
      have hBack : (c.endpoints.insert name (.fresh name)).erase name = c.endpoints :=
        Keyed.erase_insert_of_missing hEntry _
      simp [hBack]
    | some entry =>
      have hSame : c.endpoints.insert name entry = c.endpoints := Keyed.insert_of_find? hEntry
      simp [hSame]

theorem answered_editEndpoint {work : EndpointWork Unit}
    {f : Endpoint → Except RecordError Endpoint} (h : work.Does f) :
    answered (fun _ => .done) (c.editEndpoint name work) = c.settle (c.writeEndpoint name f) := by
  rw [editEndpoint_eq c name h]
  cases c.writeEndpoint name f <;> rfl

theorem apply_appendLatency (value timestamp : Float) :
    c.apply (.appendLatency name value timestamp) =
      c.settle (c.writeEndpoint name fun e => e.appendLatency value timestamp) :=
  answered_editEndpoint c name (EndpointWork.append_does _)

theorem apply_appendSent (value : UInt64) (timestamp : Float) :
    c.apply (.appendSent name value timestamp) =
      c.settle (c.writeEndpoint name fun e => e.appendSent value timestamp) :=
  answered_editEndpoint c name (EndpointWork.append_does _)

theorem apply_appendReceived (value : UInt64) (timestamp : Float) :
    c.apply (.appendReceived name value timestamp) =
      c.settle (c.writeEndpoint name fun e => e.appendReceived value timestamp) :=
  answered_editEndpoint c name (EndpointWork.append_does _)

theorem recordSample_eq (s : EndpointSample) :
    c.recordSample name s =
      match c.record name s with
      | .ok (c', created) => (c', .ok created)
      | .error e => (c, .error e) := by
  rw [recordSample, editEndpoint_eq c name (sample_does s), record]
  cases c.writeEndpoint name (appendSample s) <;> rfl

theorem apply_record (s : EndpointSample) :
    c.apply (.record name s) =
      match c.record name s with
      | .ok (c', created) => (c', .ok (.created created))
      | .error e => (c, .error e) := by
  rw [apply, recordSample_eq]
  cases c.record name s <;> rfl

end Cache

end GatewayTelemetry
