import GatewayTelemetry.Proofs.Agent.Creation
import GatewayTelemetry.Proofs.Agent.Window
import GatewayTelemetry.Proofs.Collection.Sample

/-! # What a claimed window hands over

A multi-cluster cycle that claims its rate window hands over one event with the whole endpoint map
as it is after the sample. The event is an addition when an endpoint was made by this sample, or by
one that came too soon after the last claim to hand anything over.
-/

namespace GatewayTelemetry

theorem EndpointMap.get?_encode (m : EndpointMap) (name : String) :
    m.encode.get? name = (m.find? name).map Endpoint.encode := by
  simp only [encode, Json.get?, Keyed.find?, List.find?_map, Function.comp_def, Option.map_map]

namespace Agent

namespace Cycle

def Claims (c : Cycle) : Prop :=
  c.target = .multiCluster ∧ c.recorded?.isSome ∧
    (c.before.emission.limiter.tryAcquire c.time).1 = true

instance : DecidablePred Claims := fun _ => inferInstanceAs (Decidable (_ ∧ _ ∧ _))

theorem claims_iff {c : Cycle} : c.Claims ↔ c.target = .multiCluster ∧ c.Pushes := by
  rw [Claims, RateLimiter.tryAcquire_fst]
  refine and_congr_right fun hTarget => ⟨?_, ?_⟩
  · rintro ⟨hRecorded, hReady⟩
    obtain ⟨_, added, hEvents⟩ := multiCluster_pushes hTarget hRecorded hReady
    rw [Pushes, hEvents]
    exact List.cons_ne_nil _ _
  · intro hPushes
    by_contra hIdle
    rw [Decidable.not_and_iff_or_not, Option.not_isSome_iff_eq_none, Bool.not_eq_true] at hIdle
    exact hPushes (multiCluster_silent hTarget hIdle).2

/-- An endpoint as the cycle has sampled it: its latest points are those of the sample. -/
structure Shows (c : Cycle) (remote : String) (received sent : UInt64) (e : Endpoint) : Prop where
  cached : c.after.cache.endpoint? remote = some e
  received : e.received.latest? = some (c.before.options.stamp c.time, received)
  sent : e.sent.latest? = some (c.before.options.stamp c.time, sent)
  latency : ∀ x, c.before.sources.multiCluster.latency remote = some x →
    e.latencies.latest? = some (c.before.options.stamp c.time, x)

theorem exists_shows {c : Cycle} (hTarget : c.target = .multiCluster) (h : c.recorded?.isSome) :
    ∃ remote received sent e, MultiClusterCycle.Met c.before.sources.multiCluster remote ∧
      c.before.sources.multiCluster.received = .ok received ∧
      c.before.sources.multiCluster.sent = .ok sent ∧ c.Shows remote received sent e := by
  simp only [recorded?, hTarget] at h
  obtain ⟨⟨cache, created⟩, hRecorded⟩ := Option.isSome_iff_exists.mp h
  obtain ⟨hStamp, remote, received, sent, hMet, hReceived, hSent⟩ :=
    MultiClusterCycle.met_of_recorded hRecorded
  obtain ⟨_, _, _, e, hFound, hSampled⟩ := MultiClusterCycle.run_of_met c.time c.before.emission
    c.before.cache hMet hReceived hSent hStamp
  refine ⟨remote, received, sent, e, hMet, hReceived, hSent, ?_, hSampled.received.latest?,
    hSampled.sent.latest?, fun x hx => (hSampled.latency x hx).latest?⟩
  rw [after_multiCluster hTarget]
  exact hFound

end Cycle

/-- The sample of the cycle, or one since the last claim before it, made its endpoint. -/
def MadeSinceClaim (past : List Cycle) (c : Cycle) : Prop :=
  c.Creates ∨ ∃ u x v, past = u ++ x :: v ∧ x.Creates ∧ ∀ y ∈ x :: v, ¬ y.Claims

theorem madeSinceClaim_iff {past : List Cycle} {c : Cycle} :
    MadeSinceClaim past c ↔ Marked past ∨ c.Creates := by
  simp only [MadeSinceClaim, Marked, Cycle.claims_iff, not_and, or_comm]

/-- A cycle that claims its window hands over one event. It is an addition exactly when an endpoint
was made since the last claim, and its payload is the endpoint map after the sample, with the
sampled points last. -/
theorem event_of_claim (o : Options) (sources : Sources) (steps : List Step)
    {pre post : List Cycle} {c : Cycle}
    (hRun : (ofOptions o sources).cycles steps = pre ++ c :: post) (hClaims : c.Claims) :
    ∃ event, c.events = [event] ∧ event.target = .multiCluster ∧
      (MadeSinceClaim pre c → event.kind = .added) ∧
      (¬ MadeSinceClaim pre c → event.kind = .modified) ∧
      event.payload = EndpointMap.encode c.after.cache.endpoints ∧
      ∃ remote received sent e, MultiClusterCycle.Met c.before.sources.multiCluster remote ∧
        c.before.sources.multiCluster.received = .ok received ∧
        c.before.sources.multiCluster.sent = .ok sent ∧ c.Shows remote received sent e ∧
        event.payload.get? remote = some e.encode := by
  obtain ⟨hTarget, hRecorded, hFree⟩ := hClaims
  rw [RateLimiter.tryAcquire_fst] at hFree
  obtain ⟨_, added, hEvents⟩ := Cycle.multiCluster_pushes hTarget hRecorded hFree
  obtain ⟨remote, received, sent, e, hMet, hReceived, hSent, hShows⟩ :=
    Cycle.exists_shows hTarget hRecorded
  have hKind : (MultiClusterCycle.event added c.after.cache).kind = .added ↔
      MadeSinceClaim pre c := by
    rw [(Cycle.mark hTarget).2 _ (hEvents ▸ List.mem_singleton_self _), marked o sources steps hRun,
      madeSinceClaim_iff]
  refine ⟨_, hEvents, rfl, hKind.mpr, ?_, rfl, remote, received, sent, e, hMet, hReceived, hSent,
    hShows, ?_⟩
  · intro hOld
    cases added with
    | true => exact absurd (hKind.mp rfl) hOld
    | false => rfl
  · show (EndpointMap.encode c.after.cache.endpoints).get? remote = _
    rw [EndpointMap.get?_encode, show c.after.cache.endpoints.find? remote = _ from hShows.cached]
    rfl

/-- The endpoint is made again while the window is claimed, and it is still there when the window
is free. -/
def heldBack : List Step :=
  [.collect .multiCluster, .cache .clear, .collect .multiCluster, .supervise (.sleep 5000),
    .collect .multiCluster]

theorem event_of_claim_held_back :
    ∃ a c d, (ofOptions narrow tunnel).cycles heldBack = [a, c, d] ∧ ¬ c.Claims ∧ d.Claims ∧
      (d.before.cache.endpoint? "cluster-b").isSome ∧
      ∃ event, d.events = [event] ∧ event.kind = .added := by
  obtain ⟨a, c, d, hRun⟩ : ∃ a c d, (ofOptions narrow tunnel).cycles heldBack = [a, c, d] :=
    List.length_eq_three.mp (by decide +kernel)
  have hShown : ((ofOptions narrow tunnel).cycles heldBack).map (fun x =>
      (x.glimpse, decide x.Claims)) =
        [((.multiCluster, [(.added, true)], false, true), true),
          ((.multiCluster, [], false, true), false),
          ((.multiCluster, [(.added, false)], true, true), true)] := by decide +kernel
  rw [hRun] at hShown
  obtain ⟨_, ⟨hMade, hHeld⟩, hAgain, hClaims⟩ :
      (a.glimpse = _ ∧ a.Claims) ∧ (c.glimpse = _ ∧ ¬ c.Claims) ∧ d.glimpse = _ ∧ d.Claims := by
    simpa using hShown
  have hThere : (d.before.cache.endpoint? "cluster-b").isSome = true :=
    congrArg (fun g : Target × List (EventKind × Bool) × Bool × Bool => g.2.2.1) hAgain
  have hSince : MadeSinceClaim [a, c] d :=
    .inr ⟨[a], c, [], rfl, Cycle.creates_of_glimpse hMade, by simpa using hHeld⟩
  have hSplit : (ofOptions narrow tunnel).cycles heldBack = [a, c] ++ d :: [] := hRun
  obtain ⟨event, hEvents, _, hAdded, _⟩ := event_of_claim narrow tunnel heldBack hSplit hClaims
  exact ⟨a, c, d, hRun, hHeld, hClaims, hThere, event, hEvents, hAdded hSince⟩

end Agent

end GatewayTelemetry
