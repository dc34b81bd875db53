import GatewayTelemetry.Collection.MultiCluster
import GatewayTelemetry.Proofs.Cache.Write
import GatewayTelemetry.Proofs.Outcome

/-! # What a multi-cluster cycle does

A cycle either records one sample and publishes, or leaves everything alone. A claimed window gives
one event, an addition if an endpoint was made since the last claim.
-/

namespace GatewayTelemetry

namespace MultiClusterCycle

/-- The cache with the sample of the cycle, and whether that made an endpoint, if there is a
sample to record. -/
def recorded? (s : Sources) (stamp : Float) (c : Cache) : Option (Cache × Bool) :=
  match connectedRemote? s, counters s with
  | some remote, .ok (received, sent) =>
    (c.record remote ⟨stamp, received, sent, s.latency remote⟩).toOption
  | _, _ => none

variable {s : Sources} {now : Nat} {stamp : Float} {e : Emission} {c c' : Cache} {created : Bool}

theorem sample_eq (remote : String) (received sent : UInt64) :
    sample s now stamp e c remote received sent =
      match c.record remote ⟨stamp, received, sent, s.latency remote⟩ with
      | .error error => ⟨c, e, none, .error error⟩
      | .ok (c, created) =>
        ⟨c, (publish now e c created).1, (publish now e c created).2, .ok ()⟩ := by
  rw [sample, Cache.recordSample_eq]
  cases c.record remote ⟨stamp, received, sent, s.latency remote⟩ <;> rfl

theorem connectedRemote?_eq_some_iff {remote : String} :
    connectedRemote? s = some remote ↔
      s.devicePresent = true ∧ s.countersPresent = true ∧ s.remote = .ok (some remote) ∧
        s.gateway = .connected := by
  unfold connectedRemote?
  constructor
  · intro h
    split at h
    · cases h
    · rename_i hPresent
      rw [Bool.or_eq_true, not_or, Bool.not_eq_true', Bool.not_eq_true', Bool.not_eq_false,
        Bool.not_eq_false] at hPresent
      split at h
      · rename_i hRemote
        obtain ⟨hGateway, rfl⟩ := (Option.ite_none_right_eq_some.mp h).imp_right Option.some.inj
        exact ⟨hPresent.1, hPresent.2, hRemote, hGateway⟩
      · cases h
  · rintro ⟨hDevice, hCounters, hRemote, hGateway⟩
    simp [hDevice, hCounters, hRemote, hGateway]

theorem counters_eq_ok_iff {received sent : UInt64} :
    counters s = .ok (received, sent) ↔ s.received = .ok received ∧ s.sent = .ok sent := by
  simp only [counters, bind_eq_ok_iff, pure_eq_ok_iff, Prod.mk.injEq]
  constructor
  · rintro ⟨_, hReceived, _, hSent, rfl, rfl⟩
    exact ⟨hReceived, hSent⟩
  · rintro ⟨hReceived, hSent⟩
    exact ⟨received, hReceived, sent, hSent, rfl, rfl⟩

theorem recorded_ok (h : recorded? s stamp c = some (c', created)) :
    ∃ remote received sent, connectedRemote? s = some remote ∧ counters s = .ok (received, sent) ∧
      c.record remote ⟨stamp, received, sent, s.latency remote⟩ = .ok (c', created) := by
  unfold recorded? at h
  split at h
  · rename_i remote received sent hRemote hCounters
    refine ⟨remote, received, sent, hRemote, hCounters, ?_⟩
    cases hRecord : c.record remote ⟨stamp, received, sent, s.latency remote⟩ with
    | error error => simp [hRecord, Except.toOption] at h
    | ok r => simpa [hRecord, Except.toOption] using h
  · cases h

theorem run_of_recorded (now : Nat) (e : Emission) (h : recorded? s stamp c = some (c', created)) :
    run s now stamp e c =
      ⟨c', (publish now e c' created).1, (publish now e c' created).2, .ok ()⟩ := by
  obtain ⟨remote, received, sent, hRemote, hCounters, hRecord⟩ := recorded_ok h
  simp only [run, hRemote, hCounters, sample_eq, hRecord]

theorem run_of_unrecorded (now : Nat) (e : Emission) (h : recorded? s stamp c = none) :
    ∃ outcome, run s now stamp e c = ⟨c, e, none, outcome⟩ := by
  unfold run
  cases hRemote : connectedRemote? s with
  | none => exact ⟨.ok (), rfl⟩
  | some remote =>
    cases hCounters : counters s with
    | error error => cases error <;> exact ⟨_, rfl⟩
    | ok r =>
      obtain ⟨received, sent⟩ := r
      cases hRecord : c.record remote ⟨stamp, received, sent, s.latency remote⟩ with
      | error error => exact ⟨.error error, by simp only [sample_eq, hRecord]⟩
      | ok r => simp [recorded?, hRemote, hCounters, hRecord, Except.toOption] at h

theorem publish_of_isReady (h : e.limiter.isReady now = true) :
    publish now e c created =
      (⟨{ e.limiter with last := some now }, false⟩, some (event (e.pendingAdded || created) c)) := by
  simp only [publish, RateLimiter.tryAcquire_of_isReady h]

theorem publish_of_not_isReady (h : e.limiter.isReady now = false) :
    publish now e c created = (⟨e.limiter, e.pendingAdded || created⟩, none) := by
  simp only [publish, RateLimiter.tryAcquire_of_not_isReady h]

theorem event_kind (added : Bool) (c : Cache) : (event added c).kind = .added ↔ added = true := by
  cases added
  · exact ⟨nofun, nofun⟩
  · exact ⟨fun _ => rfl, fun _ => rfl⟩

theorem created_iff (h : recorded? s stamp c = some (c', created)) :
    created = true ↔ ∃ name, c.endpoint? name = none ∧ (c'.endpoint? name).isSome := by
  obtain ⟨remote, received, sent, _, _, hRecord⟩ := recorded_ok h
  obtain ⟨hWritten, hFlag⟩ := Cache.record_ok hRecord
  obtain ⟨_, made, hMade⟩ := Cache.writeEndpoint_ok hWritten
  rw [hFlag, Option.isNone_iff_eq_none]
  constructor
  · intro hNone
    exact ⟨remote, hNone, by simp [Cache.endpoint?, hMade]⟩
  · rintro ⟨name, hNone, hSome⟩
    by_cases hName : name = remote
    · exact hName ▸ hNone
    · simp only [Cache.endpoint?, hMade, Keyed.find?_insert, if_neg hName] at hSome
      rw [Cache.endpoint?] at hNone
      simp [hNone] at hSome

end MultiClusterCycle

end GatewayTelemetry
