import GatewayTelemetry.Proofs.Cache.EndpointWrite
import GatewayTelemetry.Proofs.Cache.Transcript

/-! # What becomes of an endpoint over a history

An endpoint is there when a write to it has been accepted since it was last removed, and each of
its series holds the latest of the points that were accepted since then.
-/

namespace GatewayTelemetry

namespace Cache

/-- The writes to an endpoint that were accepted since it was last removed, in order. -/
def accepted (e : String) (t : List Exchange) : List EndpointWrite :=
  (t.rtakeWhile fun x => !x.operation.removes e).filterMap fun x =>
    if x.answer.isOk then x.operation.writeTo? e else none

theorem accepted_concat (e : String) (t : List Exchange) (x : Exchange) :
    accepted e (t ++ [x]) =
      if x.operation.removes e then []
      else accepted e t ++ (if x.answer.isOk then x.operation.writeTo? e else none).toList := by
  rw [accepted, List.rtakeWhile_concat]
  cases x.operation.removes e with
  | true => rfl
  | false =>
    simp only [Bool.not_false, if_true, Bool.false_eq_true, if_false, List.filterMap_append]
    rfl

theorem mem_accepted {e : String} {t : List Exchange} {w : EndpointWrite} (h : w ∈ accepted e t) :
    ∃ x ∈ t, x.answer.isOk = true ∧ x.operation.write? = some w ∧ w.endpoint = e := by
  obtain ⟨x, hx, hWrite⟩ := List.mem_filterMap.mp h
  obtain ⟨hOk, hSome⟩ := Option.ite_none_right_eq_some.mp hWrite
  exact ⟨x, (List.rtakeWhile_suffix _ _).subset hx, hOk, Operation.writeTo?_eq_some_iff.mp hSome⟩

def written (e : String) (writes : List EndpointWrite) : Option Endpoint :=
  writes.foldl (fun found w => some (w.onto (found.getD (.fresh e)))) none

theorem written_concat (e : String) (writes : List EndpointWrite) (w : EndpointWrite) :
    written e (writes ++ [w]) = some (w.onto ((written e writes).getD (.fresh e))) := by
  rw [written, List.foldl_append]
  rfl

theorem endpoint?_applyAll (history : List Operation) (e : String) :
    (empty.applyAll history).endpoint? e = written e (accepted e (empty.transcript history)) := by
  induction history using List.reverseRecOn with
  | nil => rfl
  | append_singleton past op ih =>
    rw [applyAll_concat, transcript_concat, accepted_concat, endpoint?_apply, ih]
    cases op.removes e with
    | true => rfl
    | false =>
      rw [if_neg Bool.false_ne_true, if_neg Bool.false_ne_true]
      cases op.writeTo? e with
      | none => simp
      | some w =>
        cases ((empty.applyAll past).apply op).2.isOk with
        | true => exact (written_concat e _ w).symm
        | false => simp

structure Endpoint.Follows (ep : Endpoint) (e : String) (writes : List EndpointWrite) : Prop where
  name : ep.name = e
  latencies : ep.latencies.Remembers (writes.filterMap EndpointWrite.latencyPoint)
  sent : ep.sent.Remembers (writes.filterMap EndpointWrite.sentPoint)
  received : ep.received.Remembers (writes.filterMap EndpointWrite.receivedPoint)
  capacity : ep.latencies.capacity = Series.standardCapacity ∧
    ep.sent.capacity = Series.standardCapacity ∧ ep.received.capacity = Series.standardCapacity

theorem follows_fresh (e : String) : Endpoint.Follows (.fresh e) e [] where
  name := rfl
  latencies := Series.remembers_ofCapacity _
  sent := Series.remembers_ofCapacity _
  received := Series.remembers_ofCapacity _
  capacity := ⟨rfl, rfl, rfl⟩

theorem Endpoint.Follows.onto {ep : Endpoint} {e : String} {writes : List EndpointWrite}
    (h : Endpoint.Follows ep e writes) (w : EndpointWrite) :
    Endpoint.Follows (w.onto ep) e (writes ++ [w]) := by
  have hLast : ∀ {α : Type} (point : EndpointWrite → Option α),
      (writes ++ [w]).filterMap point = writes.filterMap point ++ (point w).toList := by
    intro α point
    rw [List.filterMap_append]
    rfl
  constructor
  · exact h.name
  · rw [hLast]
    exact h.latencies.pushPoint _
  · rw [hLast]
    exact h.sent.pushPoint _
  · rw [hLast]
    exact h.received.pushPoint _
  · simpa [EndpointWrite.onto] using h.capacity

theorem written_follows (e : String) (writes : List EndpointWrite) :
    Endpoint.Follows ((written e writes).getD (.fresh e)) e writes := by
  induction writes using List.reverseRecOn with
  | nil => exact follows_fresh e
  | append_singleton past w ih =>
    rw [written_concat, Option.getD_some]
    exact ih.onto w

theorem written_isSome (e : String) (writes : List EndpointWrite) :
    (written e writes).isSome ↔ writes ≠ [] := by
  rcases List.eq_nil_or_concat' writes with rfl | ⟨past, w, rfl⟩
  · simp [written]
  · simp [written_concat]

theorem follows_of_endpoint? {history : List Operation} {e : String} {ep : Endpoint}
    (h : (empty.applyAll history).endpoint? e = some ep) :
    Endpoint.Follows ep e (accepted e (empty.transcript history)) := by
  rw [endpoint?_applyAll] at h
  have hFollows := written_follows e (accepted e (empty.transcript history))
  rwa [h] at hFollows

theorem accepted_point {e : String} {t : List Exchange} (h : accepted e t ≠ []) :
    (accepted e t).filterMap EndpointWrite.latencyPoint ≠ [] ∨
      (accepted e t).filterMap EndpointWrite.sentPoint ≠ [] ∨
      (accepted e t).filterMap EndpointWrite.receivedPoint ≠ [] := by
  obtain ⟨w, hw⟩ := List.exists_mem_of_ne_nil _ h
  obtain ⟨x, _, _, hWrite, _⟩ := mem_accepted hw
  have hKept : ∀ {α : Type} {point : EndpointWrite → Option α}, (point w).isSome →
      (accepted e t).filterMap point ≠ [] := by
    intro α point hPoint
    obtain ⟨p, hp⟩ := Option.isSome_iff_exists.mp hPoint
    exact List.ne_nil_of_mem (List.mem_filterMap.mpr ⟨w, hw, hp⟩)
  exact (Operation.write?_not_empty hWrite).imp hKept (Or.imp hKept hKept)

/-- After every history: an endpoint is there when a write to it was accepted since its last
removal; its series hold the last sixty of the points accepted since then; no endpoint is without
points or under another name; and a recorded sample tells whether its endpoint was missing. -/
theorem endpoint_history (history : List Operation) (e : String) :
    let c := empty.applyAll history
    let writes := accepted e (empty.transcript history)
    ((c.endpoint? e).isSome ↔ writes ≠ []) ∧
      (∀ ep, c.endpoint? e = some ep →
        ep.latencies.points = (writes.filterMap EndpointWrite.latencyPoint).rtake 60 ∧
          ep.sent.points = (writes.filterMap EndpointWrite.sentPoint).rtake 60 ∧
          ep.received.points = (writes.filterMap EndpointWrite.receivedPoint).rtake 60 ∧
          ¬ (ep.latencies.isEmpty ∧ ep.sent.isEmpty ∧ ep.received.isEmpty)) ∧
      (∀ entry ∈ c.endpoints.entries, entry.2.name = entry.1) ∧
      (∀ op w, Operation.writeTo? e op = some w →
        ((c.apply op).2.isOk = true ↔ w.timestamp.isFinite = true)) ∧
      ∀ s, (c.apply (.record e s)).2 =
        if s.timestamp.isFinite then .ok (.created (c.endpoint? e).isNone)
        else .error (.record (.timestampNotFinite s.timestamp)) := by
  intro c writes
  have hPresent : (c.endpoint? e).isSome ↔ writes ≠ [] := by
    rw [show c.endpoint? e = written e writes from endpoint?_applyAll history e, written_isSome]
  refine ⟨hPresent, ?_, ?_, ?_, ?_⟩
  · intro ep hFound
    have hFollows := follows_of_endpoint? hFound
    obtain ⟨hLatencies, hSent, hReceived⟩ := hFollows.capacity
    refine ⟨hFollows.latencies.points hLatencies, hFollows.sent.points hSent,
      hFollows.received.points hReceived, ?_⟩
    rw [hFollows.latencies.isEmpty, hFollows.sent.isEmpty, hFollows.received.isEmpty]
    rintro ⟨hNoLatency, hNoSent, hNoReceived⟩
    have hWritten : writes ≠ [] := hPresent.mp (by simp [hFound])
    rcases accepted_point hWritten with hPoint | hPoint | hPoint
    · exact hPoint hNoLatency
    · exact hPoint hNoSent
    · exact hPoint hNoReceived
  · intro entry hEntry
    exact (follows_of_endpoint? ((c.endpoints.find?_eq_some_iff _ _).mpr hEntry)).name
  · intro op w hWrite
    rcases c.apply_write (Operation.writeTo?_eq_some_iff.mp hWrite).1 with
      ⟨hFinite, _, hOk⟩ | ⟨hInfinite, hApply⟩
    · simp [hFinite, hOk]
    · simp [hInfinite, hApply, Except.isOk, Except.toBool]
  · intro s
    rw [apply_record, record_eq]
    cases s.timestamp.isFinite <;> rfl

end Cache

end GatewayTelemetry
