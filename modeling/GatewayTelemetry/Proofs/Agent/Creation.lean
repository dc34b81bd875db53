import GatewayTelemetry.Proofs.Agent.Run
import Mathlib.Data.List.Basic

/-! # Which events are additions

A multi-cluster event is an addition when a cycle has made an endpoint since the last event before
it was handed over. An event that the channel refuses takes the mark with it, so a consumer hears of
a new endpoint exactly when no refusal comes after the latest creation.
-/

namespace GatewayTelemetry.Agent

namespace Cycle

def Creates (c : Cycle) : Prop :=
  c.target = .multiCluster ∧
    ∃ name, c.before.cache.endpoint? name = none ∧ (c.after.cache.endpoint? name).isSome

def Accepted (c : Cycle) : Prop :=
  c.target = .multiCluster ∧ ∃ e ∈ c.events, (c.before.channel.send e).2 = .ok ()

def Refused (c : Cycle) : Prop :=
  c.target = .multiCluster ∧ ∃ e ∈ c.events, (c.before.channel.send e).2 ≠ .ok ()

theorem Refused.pushes {c : Cycle} (h : c.Refused) : c.Pushes := by
  obtain ⟨_, e, he, _⟩ := h
  exact List.ne_nil_of_mem he

theorem accepted_or_refused {c : Cycle} (hTarget : c.target = .multiCluster) (h : c.Pushes) :
    c.Accepted ∨ c.Refused := by
  obtain ⟨e, he⟩ := List.exists_mem_of_ne_nil _ h
  by_cases hSent : (c.before.channel.send e).2 = .ok ()
  · exact .inl ⟨hTarget, e, he, hSent⟩
  · exact .inr ⟨hTarget, e, he, hSent⟩

theorem recording {c : Cycle} (hTarget : c.target = .multiCluster) {cache : Cache} {created : Bool}
    (h : c.recorded? = some (cache, created)) :
    (created = true ↔ c.Creates) ∧
      c.after.emission =
        (MultiClusterCycle.publish c.time c.before.emission cache created).1 ∧
      c.events =
        (MultiClusterCycle.publish c.time c.before.emission cache created).2.toList := by
  simp only [recorded?, hTarget] at h
  simp only [Creates, after_multiCluster hTarget, events, hTarget, multiClusterResult,
    MultiClusterCycle.run_of_recorded _ _ h, true_and, and_true]
  exact MultiClusterCycle.created_iff h

theorem not_recording {c : Cycle} (hTarget : c.target = .multiCluster) (h : c.recorded? = none) :
    ¬ c.Creates ∧ c.after.emission = c.before.emission ∧ c.events = [] := by
  simp only [recorded?, hTarget] at h
  obtain ⟨outcome, hRun⟩ := MultiClusterCycle.run_of_unrecorded c.time c.before.emission h
  simp only [Creates, after_multiCluster hTarget, events, hTarget, multiClusterResult, hRun,
    true_and]
  refine ⟨?_, rfl⟩
  rintro ⟨name, hNone, hSome⟩
  rw [hNone] at hSome
  cases hSome

theorem mark {c : Cycle} (hTarget : c.target = .multiCluster) :
    (c.after.emission.pendingAdded = true ↔
        ¬ c.Pushes ∧ (c.before.emission.pendingAdded = true ∨ c.Creates)) ∧
      ∀ e ∈ c.events, e.kind = .added ↔ c.before.emission.pendingAdded = true ∨ c.Creates := by
  cases hRecorded : c.recorded? with
  | none =>
    obtain ⟨hCreates, hEmission, hEvents⟩ := not_recording hTarget hRecorded
    simp [Pushes, hCreates, hEmission, hEvents]
  | some r =>
    obtain ⟨cache, created⟩ := r
    obtain ⟨hCreated, hEmission, hEvents⟩ := recording hTarget hRecorded
    cases hReady : c.before.emission.limiter.isReady c.time with
    | false =>
      rw [MultiClusterCycle.publish_of_not_isReady hReady] at hEmission hEvents
      simp [Pushes, hEmission, hEvents, ← hCreated]
    | true =>
      rw [MultiClusterCycle.publish_of_isReady hReady] at hEmission hEvents
      simp [Pushes, hEmission, hEvents, ← hCreated, MultiClusterCycle.event_kind]

end Cycle

/-- Some cycle made an endpoint, and no multi-cluster event has been handed over since. -/
def Marked (past : List Cycle) : Prop :=
  ∃ u x v, past = u ++ x :: v ∧ x.Creates ∧
    ∀ y ∈ x :: v, y.target = .multiCluster → ¬ y.Pushes

theorem not_marked_nil : ¬ Marked [] := by
  rintro ⟨u, x, v, hSplit, _⟩
  simp at hSplit

theorem marked_append (past : List Cycle) (c : Cycle) :
    Marked (past ++ [c]) ↔
      (c.target = .multiCluster → ¬ c.Pushes) ∧ (Marked past ∨ c.Creates) := by
  constructor
  · rintro ⟨u, x, v, hSplit, hCreates, hSilent⟩
    rcases List.eq_nil_or_concat' v with rfl | ⟨v', z, rfl⟩
    · obtain ⟨rfl, rfl⟩ := List.append_singleton_inj.mp hSplit
      exact ⟨hSilent c (by simp), .inr hCreates⟩
    · rw [← List.cons_append, ← List.append_assoc] at hSplit
      obtain ⟨rfl, rfl⟩ := List.append_singleton_inj.mp hSplit
      exact ⟨hSilent c (by simp), .inl ⟨u, x, v', rfl, hCreates, fun y hy => hSilent y (by grind)⟩⟩
  · rintro ⟨hSilent, ⟨u, x, v, rfl, hCreates, hPast⟩ | hCreates⟩
    · refine ⟨u, x, v ++ [c], by simp, hCreates, ?_⟩
      intro y hy
      rw [← List.cons_append] at hy
      rcases List.mem_append.mp hy with hOld | hNew
      · exact hPast y hOld
      · exact List.mem_singleton.mp hNew ▸ hSilent
    · refine ⟨past, c, [], rfl, hCreates, ?_⟩
      intro y hy
      exact List.mem_singleton.mp hy ▸ hSilent

theorem marked_cycle {past : List Cycle} {c : Cycle}
    (h : c.before.emission.pendingAdded = true ↔ Marked past) :
    c.after.emission.pendingAdded = true ↔ Marked (past ++ [c]) := by
  rw [marked_append]
  cases hTarget : c.target with
  | node =>
    have hOther : ¬ c.Creates := fun hCreates => nomatch hTarget.symm.trans hCreates.1
    rw [Cycle.after_node hTarget]
    simp [h, hOther]
  | multiCluster => simp [(Cycle.mark hTarget).1, h]

theorem marked (o : Options) (sources : Sources) (steps : List Step) {pre post : List Cycle}
    {c : Cycle} (h : (ofOptions o sources).cycles steps = pre ++ c :: post) :
    c.before.emission.pendingAdded = true ↔ Marked pre := by
  have hStart : (ofOptions o sources).emission.pendingAdded = true ↔ Marked [] :=
    ⟨nofun, fun hMarked => absurd hMarked not_marked_nil⟩
  exact Follows.invariant (P := fun past a _ => a.emission.pendingAdded = true ↔ Marked past)
    (fun _ _ _ _ _ hMark hBetween _ => by rwa [hBetween.emission])
    (fun _ _ hMark => marked_cycle hMark) hStart (follows_cycles _ steps) h

theorem exists_last {α : Type} {p : α → Prop} {l : List α} (h : ∃ x ∈ l, p x) :
    ∃ u x v, l = u ++ x :: v ∧ p x ∧ ∀ y ∈ v, ¬ p y := by
  induction l with
  | nil =>
    obtain ⟨x, hx, _⟩ := h
    cases hx
  | cons a rest ih =>
    by_cases hRest : ∃ x ∈ rest, p x
    · obtain ⟨u, x, v, rfl, hx, hLast⟩ := ih hRest
      exact ⟨a :: u, x, v, rfl, hx, hLast⟩
    · obtain ⟨x, hx, hp⟩ := h
      rcases List.mem_cons.mp hx with rfl | hTail
      · exact ⟨[], x, rest, rfl, hp, fun y hy hpy => hRest ⟨y, hy, hpy⟩⟩
      · exact absurd ⟨x, hTail, hp⟩ hRest

/-- From the cycle `c` on, the channel first takes the event of the cycle `d`; the cycles from `c` up
to it are `mid`. -/
structure FirstHeard (c : Cycle) (mid : List Cycle) (d : Cycle) : Prop where
  first : (mid ++ [d]).head? = some c
  unheard : ∀ x ∈ mid, ¬ x.Accepted
  heard : d.Accepted

/-- The first event that the channel takes from a creation on is an addition exactly when every
event refused before it is followed by another creation. -/
theorem kind_of_first_heard (o : Options) (sources : Sources) (steps : List Step)
    {pre mid post : List Cycle} {c d : Cycle} {e : Event}
    (hRun : (ofOptions o sources).cycles steps = pre ++ (mid ++ d :: post))
    (hHeard : FirstHeard c mid d) (hCreates : c.Creates) (hEvent : e ∈ d.events) :
    e.kind = .added ↔
      ∀ u y v, mid = u ++ y :: v → y.Refused → ∃ x ∈ v ++ [d], x.Creates := by
  rw [← List.append_assoc] at hRun
  rw [(Cycle.mark hHeard.heard.1).2 e hEvent, marked o sources steps hRun]
  constructor
  · rintro (⟨u', x, v', hSplit, hNew, hSilent⟩ | hNew) u y v rfl hRefused
    · rw [← List.append_assoc, List.append_eq_append_iff] at hSplit
      -- A refusal takes the mark, so the creation that left it comes later.
      have hNotSilent : y ∉ x :: v' := fun hy => hSilent y hy hRefused.1 hRefused.pushes
      rcases hSplit with ⟨w, _, hTail⟩ | ⟨w, _, hTail⟩
      · cases w with
        | nil =>
          obtain ⟨rfl, _⟩ := List.cons.inj hTail
          exact absurd List.mem_cons_self hNotSilent
        | cons z w =>
          obtain ⟨_, rfl⟩ := List.cons.inj hTail
          exact ⟨x, by simp, hNew⟩
      · exact absurd (hTail ▸ List.mem_append_right w List.mem_cons_self) hNotSilent
    · exact ⟨d, by simp, hNew⟩
  · intro hFollowed
    by_cases hLast : d.Creates
    · exact .inr hLast
    · have hMade : ∃ x ∈ mid, x.Creates := by
        cases mid with
        | nil =>
          obtain rfl : d = c := by simpa using hHeard.first
          exact absurd hCreates hLast
        | cons x rest =>
          obtain rfl : x = c := by simpa using hHeard.first
          exact ⟨x, List.mem_cons_self, hCreates⟩
      obtain ⟨u, x, v, rfl, hNew, hNone⟩ := exists_last hMade
      refine .inl ⟨pre ++ u, x, v, by simp, hNew, ?_⟩
      intro y hy hTarget hPushes
      -- A push that is not heard is refused, so there would be a later creation.
      have hUnheard : ¬ y.Accepted := hHeard.unheard y (List.mem_append_right u hy)
      have hRefused : y.Refused := (Cycle.accepted_or_refused hTarget hPushes).resolve_left hUnheard
      obtain ⟨s, t, hSplit⟩ := List.append_of_mem hy
      obtain ⟨z, hz, hLater⟩ := hFollowed (u ++ s) y t (by simp [hSplit]) hRefused
      rcases List.mem_append.mp hz with hIn | hEnd
      · have hTail : z ∈ v := by
          cases s with
          | nil =>
            obtain ⟨_, rfl⟩ := List.cons.inj hSplit
            exact hIn
          | cons _ s =>
            obtain ⟨_, rfl⟩ := List.cons.inj hSplit
            exact List.mem_append_right s (List.mem_cons_of_mem y hIn)
        exact hNone z hTail hLater
      · exact hLast (List.mem_singleton.mp hEnd ▸ hLater)

def narrow : Options := ⟨1, 5000, 2000, fun _ => 0⟩

def tunnel : Sources :=
  { Sources.quiet 9100 with
    multiCluster :=
      { devicePresent := true
        countersPresent := true
        remote := .ok (some "cluster-b")
        gateway := .connected
        received := .ok 1000
        sent := .ok 2000
        latency := fun _ => none } }

def crowding : List Step :=
  [.collect .multiCluster, .cache .clear, .supervise (.sleep 5000), .collect .multiCluster]

def nextWindow : List Step := [.drain, .supervise (.sleep 5000), .collect .multiCluster]

namespace Cycle

def glimpse (c : Cycle) : Target × List (EventKind × Bool) × Bool × Bool :=
  (c.target, c.events.map fun e => (e.kind, (c.before.channel.send e).2.toBool),
    (c.before.cache.endpoint? "cluster-b").isSome, (c.after.cache.endpoint? "cluster-b").isSome)

theorem creates_of_glimpse {c : Cycle} {shown : List (EventKind × Bool)}
    (h : c.glimpse = (.multiCluster, shown, false, true)) : c.Creates := by
  simp only [glimpse, Prod.mk.injEq] at h
  obtain ⟨hTarget, _, hBefore, hAfter⟩ := h
  exact ⟨hTarget, "cluster-b", by simpa using hBefore, hAfter⟩

theorem event_of_glimpse {c : Cycle} {kind : EventKind} {queued before after : Bool}
    (h : c.glimpse = (.multiCluster, [(kind, queued)], before, after)) :
    ∃ e, c.events = [e] ∧ e.kind = kind ∧ (c.Accepted ↔ queued = true) := by
  simp only [glimpse, Prod.mk.injEq, List.map_eq_singleton_iff] at h
  obtain ⟨hTarget, ⟨e, hEvents, hKind, hQueued⟩, _⟩ := h
  refine ⟨e, hEvents, hKind, ?_⟩
  have hSent : (c.before.channel.send e).2 = .ok () ↔ queued = true := by
    rw [← hQueued]
    cases (c.before.channel.send e).2 <;> simp [Except.toBool]
  simp [Accepted, hTarget, hEvents, hSent]

end Cycle

/-- After a refusal the endpoint is removed and made again, and the consumer hears of it. -/
theorem kind_of_first_heard_recreated :
    ∃ c d e, FirstHeard c [c] d ∧ ¬ c.Accepted ∧ e ∈ d.events ∧ e.kind = .added := by
  obtain ⟨a, c, d, hRun⟩ : ∃ a c d, (ofOptions narrow tunnel).cycles
      (crowding ++ .cache .clear :: nextWindow) = [a, c, d] :=
    List.length_eq_three.mp (by decide +kernel)
  have hShown : ((ofOptions narrow tunnel).cycles
      (crowding ++ .cache .clear :: nextWindow)).map Cycle.glimpse =
        [(.multiCluster, [(.added, true)], false, true),
          (.multiCluster, [(.added, false)], false, true),
          (.multiCluster, [(.added, true)], false, true)] := by decide +kernel
  rw [hRun] at hShown
  obtain ⟨_, hFirst, hSecond⟩ : a.glimpse = _ ∧ c.glimpse = _ ∧ d.glimpse = _ := by
    simpa using hShown
  obtain ⟨_, _, _, hRefused⟩ := Cycle.event_of_glimpse hFirst
  obtain ⟨e, hEvents, _, hAccepted⟩ := Cycle.event_of_glimpse hSecond
  have hUnheard : ¬ c.Accepted := by simp [hRefused]
  have hHeard : FirstHeard c [c] d := ⟨rfl, by simpa using hUnheard, hAccepted.mpr rfl⟩
  have hEvent : e ∈ d.events := by simp [hEvents]
  have hSplit : (ofOptions narrow tunnel).cycles (crowding ++ .cache .clear :: nextWindow) =
      [a] ++ ([c] ++ d :: []) := hRun
  refine ⟨c, d, e, hHeard, hUnheard, hEvent, ?_⟩
  refine (kind_of_first_heard _ _ _ hSplit hHeard (Cycle.creates_of_glimpse hFirst) hEvent).mpr ?_
  intro u y v _ _
  exact ⟨d, by simp, Cycle.creates_of_glimpse hSecond⟩

/-- The event of a creation is refused, and the next one tells of a change to an endpoint of which
the consumer has not heard. -/
theorem addition_lost :
    ¬ ∀ (pre mid post : List Cycle) (c d : Cycle) (e : Event),
        (ofOptions narrow tunnel).cycles (crowding ++ nextWindow) = pre ++ (mid ++ d :: post) →
          FirstHeard c mid d → c.Creates → e ∈ d.events → e.kind = .added := by
  intro hAlways
  obtain ⟨a, c, d, hRun⟩ : ∃ a c d, (ofOptions narrow tunnel).cycles
      (crowding ++ nextWindow) = [a, c, d] := List.length_eq_three.mp (by decide +kernel)
  have hShown : ((ofOptions narrow tunnel).cycles (crowding ++ nextWindow)).map Cycle.glimpse =
      [(.multiCluster, [(.added, true)], false, true),
        (.multiCluster, [(.added, false)], false, true),
        (.multiCluster, [(.modified, true)], true, true)] := by decide +kernel
  rw [hRun] at hShown
  obtain ⟨_, hFirst, hSecond⟩ : a.glimpse = _ ∧ c.glimpse = _ ∧ d.glimpse = _ := by
    simpa using hShown
  obtain ⟨_, _, _, hRefused⟩ := Cycle.event_of_glimpse hFirst
  obtain ⟨e, hEvents, hKind, hAccepted⟩ := Cycle.event_of_glimpse hSecond
  have hHeard : FirstHeard c [c] d := ⟨rfl, by simp [hRefused], hAccepted.mpr rfl⟩
  have hAdded := hAlways [a] [c] [] c d e hRun hHeard (Cycle.creates_of_glimpse hFirst)
    (by simp [hEvents])
  exact nomatch hKind.symm.trans hAdded

end GatewayTelemetry.Agent
