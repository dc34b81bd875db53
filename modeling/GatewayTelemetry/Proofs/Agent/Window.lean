import GatewayTelemetry.Proofs.Agent.Run
import GatewayTelemetry.Proofs.RateLimiter
import Mathlib.Data.List.Induction
import Mathlib.Logic.Basic

/-! # One push per window

Over a whole run, the limiter of a target holds the time of the last push of that target. So a cycle
that has something to push pushes exactly when no push of the same target is less than a window
old.
-/

namespace GatewayTelemetry

theorem Channel.sendAll_tried (c : Channel) (es : List Event) :
    (c.sendAll es).publishedWord + (c.sendAll es).lostWord =
      c.publishedWord + c.lostWord + .ofNat es.length := by
  induction es generalizing c with
  | nil => exact (UInt64.add_zero _).symm
  | cons e rest ih =>
    have hSend : (c.send e).1.publishedWord + (c.send e).1.lostWord =
        c.publishedWord + c.lostWord + 1 := by
      unfold send
      split
      · exact (UInt64.add_assoc _ _ _).symm
      · show c.publishedWord + 1 + c.lostWord = _
        ac_rfl
    have hRest := ih (c.send e).1
    rw [hSend] at hRest
    rw [List.length_cons, UInt64.ofNat_add]
    refine hRest.trans ?_
    show c.publishedWord + c.lostWord + 1 + _ = c.publishedWord + c.lostWord + (_ + 1)
    ac_rfl

namespace Agent

def window (a : Agent) : Target → RateLimiter
  | .node => a.nodeLimiter
  | .multiCluster => a.emission.limiter

theorem Between.window {a b : Agent} (h : Between a b) (target : Target) :
    b.window target = a.window target := by
  cases target with
  | node => exact h.nodeLimiter
  | multiCluster => exact congrArg MultiClusterCycle.Emission.limiter h.emission

namespace Cycle

instance : DecidablePred Pushes := fun c => inferInstanceAs (Decidable (c.events ≠ []))

def Stores (c : Cycle) : Prop := c.updated ≠ [] ∨ c.recorded?.isSome

def listing (c : Cycle) : List String :=
  (NodeCycle.listing c.before.sources.node runHook ⟨c.before.cache, c.before.waiting⟩).cache.names

/-- The events are all that the cycle has to tell: one modification per updated node, in the order of
the listing, with its record as cached now, or a single one of all endpoints. -/
def HandsAll (c : Cycle) : Prop :=
  match c.target with
  | .node =>
    c.updated.Nodup ∧ c.updated.Sublist c.listing ∧
      c.events.map some = c.updated.map fun name =>
        (c.after.cache.node? name).map fun n => ⟨.modified, .node, n.encode⟩
  | .multiCluster =>
    ∃ kind, c.events = [⟨kind, .multiCluster, EndpointMap.encode c.after.cache.endpoints⟩]

theorem node_pushes {c : Cycle} (hDistinct : c.before.cache.Distinct) (h : c.target = .node)
    (hUpdated : c.updated ≠ []) (hReady : c.before.nodeLimiter.isReady c.time = true) :
    c.after.nodeLimiter = { c.before.nodeLimiter with last := some c.time } ∧
      c.events.map some = c.updated.map fun name =>
        (c.after.cache.node? name).map fun n => ⟨.modified, .node, n.encode⟩ := by
  simp only [updated, h] at hUpdated ⊢
  obtain ⟨hPublish, hCached⟩ := NodeCycle.run_publishes c.before.sources.node runHook c.time
    c.before.nodeLimiter (w := ⟨c.before.cache, c.before.waiting⟩) hDistinct
  rw [NodeCycle.publish_of_isReady hUpdated hReady] at hPublish
  obtain ⟨hLimiter, hEvents⟩ := Prod.mk.inj hPublish
  rw [after_node h]
  refine ⟨hLimiter.symm, ?_⟩
  simp only [events, h]
  rw [nodeResult, ← hEvents]
  exact NodeCycle.events_of_cached hCached

theorem node_silent {c : Cycle} (hDistinct : c.before.cache.Distinct) (h : c.target = .node)
    (hIdle : c.updated = [] ∨ c.before.nodeLimiter.isReady c.time = false) :
    c.after.nodeLimiter = c.before.nodeLimiter ∧ c.events = [] := by
  simp only [updated, h] at hIdle
  obtain ⟨hPublish, _⟩ := NodeCycle.run_publishes c.before.sources.node runHook c.time
    c.before.nodeLimiter (w := ⟨c.before.cache, c.before.waiting⟩) hDistinct
  rw [after_node h]
  simp only [events, h]
  rcases hIdle with hNone | hBusy
  · rw [hNone, NodeCycle.publish_nil] at hPublish
    obtain ⟨hLimiter, hEvents⟩ := Prod.mk.inj hPublish
    exact ⟨hLimiter.symm, hEvents.symm⟩
  · rw [NodeCycle.publish_of_not_isReady hBusy] at hPublish
    obtain ⟨hLimiter, hEvents⟩ := Prod.mk.inj hPublish
    exact ⟨hLimiter.symm, hEvents.symm⟩

theorem multiCluster_pushes {c : Cycle} (h : c.target = .multiCluster)
    (hRecorded : c.recorded?.isSome) (hReady : c.before.emission.limiter.isReady c.time = true) :
    c.after.emission.limiter = { c.before.emission.limiter with last := some c.time } ∧
      ∃ added, c.events = [MultiClusterCycle.event added c.after.cache] := by
  simp only [recorded?, h] at hRecorded
  obtain ⟨⟨cache, created⟩, hSample⟩ := Option.isSome_iff_exists.mp hRecorded
  rw [after_multiCluster h]
  simp only [events, h, multiClusterResult, MultiClusterCycle.run_of_recorded _ _ hSample,
    MultiClusterCycle.publish_of_isReady hReady]
  exact ⟨trivial, _, rfl⟩

theorem multiCluster_silent {c : Cycle} (h : c.target = .multiCluster)
    (hIdle : c.recorded? = none ∨ c.before.emission.limiter.isReady c.time = false) :
    c.after.emission.limiter = c.before.emission.limiter ∧ c.events = [] := by
  simp only [recorded?, h] at hIdle
  rw [after_multiCluster h]
  simp only [events, h, multiClusterResult]
  cases hSample : MultiClusterCycle.recorded? c.before.sources.multiCluster
      (c.before.options.stamp c.time) c.before.cache with
  | none =>
    obtain ⟨outcome, hRun⟩ :=
      MultiClusterCycle.run_of_unrecorded c.time c.before.emission hSample
    rw [hRun]
    exact ⟨rfl, rfl⟩
  | some r =>
    obtain ⟨cache, created⟩ := r
    have hBusy : c.before.emission.limiter.isReady c.time = false := by simpa [hSample] using hIdle
    rw [MultiClusterCycle.run_of_recorded _ _ hSample, MultiClusterCycle.publish_of_not_isReady hBusy]
    exact ⟨rfl, rfl⟩

/-- A cycle with something to tell pushes when the window of its target is free, and claims it. All
other cycles leave it as it is. -/
theorem claim {c : Cycle} (hDistinct : c.before.cache.Distinct) :
    (c.Stores ∧ (c.before.window c.target).isReady c.time = true ∧ c.Pushes ∧
        c.after.window c.target = { c.before.window c.target with last := some c.time }) ∨
      (¬ (c.Stores ∧ (c.before.window c.target).isReady c.time = true) ∧ ¬ c.Pushes ∧
        c.after.window c.target = c.before.window c.target) := by
  cases hTarget : c.target with
  | node =>
    have hStores : c.Stores ↔ c.updated ≠ [] := by simp [Stores, recorded?, hTarget]
    by_cases hFree : c.updated ≠ [] ∧ c.before.nodeLimiter.isReady c.time = true
    · obtain ⟨hWindow, hEvents⟩ := node_pushes hDistinct hTarget hFree.1 hFree.2
      refine .inl ⟨hStores.mpr hFree.1, hFree.2, ?_, hWindow⟩
      intro hNone
      rw [hNone, List.map_nil] at hEvents
      exact hFree.1 (List.map_eq_nil_iff.mp hEvents.symm)
    · have hIdle : c.updated = [] ∨ c.before.nodeLimiter.isReady c.time = false := by
        rw [Decidable.not_and_iff_or_not, not_not, Bool.not_eq_true] at hFree
        exact hFree
      obtain ⟨hWindow, hEvents⟩ := node_silent hDistinct hTarget hIdle
      exact .inr ⟨fun h => hFree ⟨hStores.mp h.1, h.2⟩, not_not_intro hEvents, hWindow⟩
  | multiCluster =>
    have hStores : c.Stores ↔ c.recorded?.isSome := by simp [Stores, updated, hTarget]
    by_cases hFree : c.recorded?.isSome ∧ c.before.emission.limiter.isReady c.time = true
    · obtain ⟨hWindow, added, hEvents⟩ := multiCluster_pushes hTarget hFree.1 hFree.2
      refine .inl ⟨hStores.mpr hFree.1, hFree.2, ?_, hWindow⟩
      rw [Pushes, hEvents]
      exact List.cons_ne_nil _ _
    · have hIdle : c.recorded? = none ∨ c.before.emission.limiter.isReady c.time = false := by
        rw [Decidable.not_and_iff_or_not, Option.not_isSome_iff_eq_none, Bool.not_eq_true] at hFree
        exact hFree
      obtain ⟨hWindow, hEvents⟩ := multiCluster_silent hTarget hIdle
      exact .inr ⟨fun h => hFree ⟨hStores.mp h.1, h.2⟩, not_not_intro hEvents, hWindow⟩

theorem pushes_iff {c : Cycle} (hDistinct : c.before.cache.Distinct) :
    c.Pushes ↔ c.Stores ∧ (c.before.window c.target).isReady c.time = true := by
  rcases claim hDistinct with ⟨hStores, hReady, hPushes, _⟩ | ⟨hIdle, hSilent, _⟩
  · exact ⟨fun _ => ⟨hStores, hReady⟩, fun _ => hPushes⟩
  · exact ⟨fun h => absurd h hSilent, fun h => absurd h hIdle⟩

theorem after_window {c : Cycle} (hDistinct : c.before.cache.Distinct) (target : Target) :
    c.after.window target =
      if c.target = target ∧ c.Pushes then { c.before.window target with last := some c.time }
      else c.before.window target := by
  by_cases hTarget : c.target = target
  · subst hTarget
    rcases claim hDistinct with ⟨_, _, hPushes, hWindow⟩ | ⟨_, hSilent, hWindow⟩
    · rw [if_pos ⟨rfl, hPushes⟩, hWindow]
    · rw [if_neg fun h => hSilent h.2, hWindow]
  · rw [if_neg fun h => hTarget h.1]
    cases hOwn : c.target with
    | node =>
      cases target with
      | node => exact absurd hOwn hTarget
      | multiCluster => rw [after_node hOwn]; rfl
    | multiCluster =>
      cases target with
      | node => rw [after_multiCluster hOwn]; rfl
      | multiCluster => exact absurd hOwn hTarget

theorem after_distinct {c : Cycle} (h : c.before.cache.Distinct) : c.after.cache.Distinct := by
  cases hTarget : c.target with
  | node =>
    rw [after_node hTarget]
    exact NodeCycle.run_distinct _ _ _ _ h
  | multiCluster =>
    rw [after_multiCluster hTarget]
    show c.multiClusterResult.cache.Distinct
    unfold multiClusterResult
    cases hSample : MultiClusterCycle.recorded? c.before.sources.multiCluster
        (c.before.options.stamp c.time) c.before.cache with
    | none =>
      obtain ⟨outcome, hRun⟩ :=
        MultiClusterCycle.run_of_unrecorded c.time c.before.emission hSample
      rw [hRun]
      exact h
    | some r =>
      obtain ⟨cache, created⟩ := r
      obtain ⟨_, _, _, _, _, hRecord⟩ := MultiClusterCycle.recorded_ok hSample
      have hNames : cache.names = c.before.cache.names :=
        Cache.writeEndpoint_names (Cache.record_ok hRecord).1
      rw [MultiClusterCycle.run_of_recorded _ _ hSample]
      unfold Cache.Distinct
      rwa [hNames]

theorem handsAll {c : Cycle} (hDistinct : c.before.cache.Distinct) (h : c.Pushes) : c.HandsAll := by
  obtain ⟨hStores, hReady⟩ := (pushes_iff hDistinct).mp h
  unfold HandsAll
  cases hTarget : c.target with
  | node =>
    rw [hTarget] at hReady
    have hUpdated : c.updated ≠ [] := by simpa [Stores, recorded?, hTarget] using hStores
    have hSublist : c.updated.Sublist c.listing := by
      simp only [updated, hTarget]
      exact NodeCycle.updated_sublist _ _ _
    have hListing : c.listing.Nodup := NodeCycle.listing_distinct _ _ hDistinct
    exact ⟨hListing.sublist hSublist, hSublist, (node_pushes hDistinct hTarget hUpdated hReady).2⟩
  | multiCluster =>
    rw [hTarget] at hReady
    have hRecorded : c.recorded?.isSome := by simpa [Stores, updated, hTarget] using hStores
    obtain ⟨_, added, hEvents⟩ := multiCluster_pushes hTarget hRecorded hReady
    exact ⟨_, hEvents⟩

end Cycle

def lastPush (target : Target) (past : List Cycle) : Option Nat :=
  ((past.filter fun c => c.target = target ∧ c.Pushes).getLast?).map (·.time)

theorem lastPush_append (target : Target) (past : List Cycle) (c : Cycle) :
    lastPush target (past ++ [c]) =
      if c.target = target ∧ c.Pushes then some c.time else lastPush target past := by
  unfold lastPush
  rw [List.filter_append]
  split
  · rename_i hPush
    simp [hPush]
  · rename_i hOther
    simp [hOther]

theorem lastPush_free {past : List Cycle} (hSorted : past.Pairwise fun c d => c.time ≤ d.time)
    (target : Target) (window now : Nat) :
    (∀ t ∈ lastPush target past, t + window ≤ now) ↔
      ∀ d ∈ past, d.target = target → d.Pushes → d.time + window ≤ now := by
  induction past using List.reverseRecOn with
  | nil => simp [lastPush]
  | append_singleton past c ih =>
    obtain ⟨hPast, _, hLast⟩ := List.pairwise_append.mp hSorted
    rw [lastPush_append]
    -- The latest push is the last one in the list, and in the order of time none comes after it.
    by_cases hPush : c.target = target ∧ c.Pushes
    · rw [if_pos hPush]
      constructor
      · intro h d hd _ _
        have hWindow : c.time + window ≤ now := h c.time rfl
        rcases List.mem_append.mp hd with hOld | hNew
        · have hOrder : d.time ≤ c.time := hLast d hOld c (List.mem_singleton_self c)
          omega
        · rw [List.mem_singleton.mp hNew]
          exact hWindow
      · rintro h t hTime
        obtain rfl : c.time = t := by simpa using hTime
        exact h c (by simp) hPush.1 hPush.2
    · rw [if_neg hPush, ih hPast]
      constructor
      · intro h d hd hTarget hPushes
        rcases List.mem_append.mp hd with hOld | hNew
        · exact h d hOld hTarget hPushes
        · rw [List.mem_singleton.mp hNew] at hTarget hPushes
          exact absurd ⟨hTarget, hPushes⟩ hPush
      · exact fun h d hd => h d (List.mem_append_left _ hd)

structure Paced (o : Options) (past : List Cycle) (a : Agent) (now : Nat) : Prop where
  window_eq : ∀ target, a.window target = ⟨o.rateWindow, lastPush target past⟩
  distinct : a.cache.Distinct
  sorted : past.Pairwise fun c d => c.time ≤ d.time
  earlier : ∀ c ∈ past, c.time ≤ now

theorem Paced.start (o : Options) (sources : Sources) :
    Paced o [] (ofOptions o sources) (ofOptions o sources).supervisor.clock where
  window_eq target := by cases target <;> rfl
  distinct := Cache.distinct_empty
  sorted := .nil
  earlier c hc := nomatch hc

theorem Paced.between {o : Options} {past : List Cycle} {a b : Agent} {now later : Nat}
    (h : Paced o past a now) (hBetween : Between a b) (hTime : now ≤ later) :
    Paced o past b later where
  window_eq target := (hBetween.window target).trans (h.window_eq target)
  distinct := hBetween.distinct h.distinct
  sorted := h.sorted
  earlier c hc := Nat.le_trans (h.earlier c hc) hTime

theorem Paced.cycle {o : Options} {past : List Cycle} {c : Cycle}
    (h : Paced o past c.before c.time) : Paced o (past ++ [c]) c.after c.time where
  window_eq target := by
    rw [Cycle.after_window h.distinct, h.window_eq, lastPush_append]
    split <;> rfl
  distinct := Cycle.after_distinct h.distinct
  sorted := by
    refine List.pairwise_append.mpr ⟨h.sorted, List.pairwise_singleton _ _, ?_⟩
    intro d hd x hx
    rw [List.mem_singleton.mp hx]
    exact h.earlier d hd
  earlier d hd := by
    rcases List.mem_append.mp hd with hOld | hNew
    · exact h.earlier d hOld
    · exact Nat.le_of_eq (congrArg Cycle.time (List.mem_singleton.mp hNew))

theorem Paced.pushes_iff {o : Options} {past : List Cycle} {c : Cycle}
    (h : Paced o past c.before c.time) :
    c.Pushes ↔ c.Stores ∧
      ∀ d ∈ past, d.target = c.target → d.Pushes → d.time + o.rateWindow ≤ c.time := by
  have hEarlier : ∀ t ∈ lastPush c.target past, t ≤ c.time :=
    (lastPush_free h.sorted c.target 0 c.time).mpr fun d hd _ _ => h.earlier d hd
  rw [Cycle.pushes_iff h.distinct, h.window_eq, RateLimiter.isReady_iff hEarlier, lastPush_free h.sorted]

theorem paced (o : Options) (sources : Sources) (steps : List Step) {pre post : List Cycle}
    {c : Cycle} (h : (ofOptions o sources).cycles steps = pre ++ c :: post) :
    Paced o pre c.before c.time :=
  (follows_cycles (ofOptions o sources) steps).invariant
    (fun _ _ _ _ _ hPaced hBetween hTime => hPaced.between hBetween hTime)
    (fun _ _ hPaced => hPaced.cycle) (Paced.start o sources) h

theorem pairwise_of_split {α : Type} {R : α → α → Prop} {l : List α}
    (h : ∀ pre c post, l = pre ++ c :: post → ∀ d ∈ pre, R d c) : l.Pairwise R := by
  induction l using List.reverseRecOn with
  | nil => exact .nil
  | append_singleton l c ih =>
    refine List.pairwise_append.mpr ⟨ih ?_, List.pairwise_singleton _ _, ?_⟩
    · intro pre d post hSplit
      exact h pre d (post ++ [c]) (by simp [hSplit])
    · intro d hd x hx
      rw [List.mem_singleton.mp hx]
      exact h l c [] rfl d hd

/-- In every run, pushes of one target are a window apart; a cycle pushes when it has stored
anything and no push of its target is less than a window old, and then it hands over all it has to
tell; and whatever the channel takes, the windows hold the latest pushes of their own targets. -/
theorem pushes_paced (o : Options) (sources : Sources) (steps : List Step) :
    ((ofOptions o sources).cycles steps).Pairwise (fun c d =>
        c.target = d.target → c.Pushes → d.Pushes → c.time + o.rateWindow ≤ d.time) ∧
      ∀ pre c post, (ofOptions o sources).cycles steps = pre ++ c :: post →
        (c.Pushes ↔ c.Stores ∧
          ∀ d ∈ pre, d.target = c.target → d.Pushes → d.time + o.rateWindow ≤ c.time) ∧
        (c.Pushes → c.HandsAll) ∧
        (∀ target, c.before.window target = ⟨o.rateWindow, lastPush target pre⟩ ∧
          c.after.window target = ⟨o.rateWindow, lastPush target (pre ++ [c])⟩) ∧
        c.after.channel = c.before.channel.sendAll c.events ∧
        c.after.channel.publishedWord + c.after.channel.lostWord =
          c.before.channel.publishedWord + c.before.channel.lostWord + .ofNat c.events.length := by
  constructor
  · apply pairwise_of_split
    intro pre d post hSplit c hc hTarget hFirst hSecond
    exact ((paced o sources steps hSplit).pushes_iff.mp hSecond).2 c hc hTarget hFirst
  · intro pre c post hSplit
    have hPaced := paced o sources steps hSplit
    have hChannel : c.after.channel = c.before.channel.sendAll c.events := by
      cases hTarget : c.target with
      | node => rw [Cycle.after_node hTarget]
      | multiCluster => rw [Cycle.after_multiCluster hTarget]
    refine ⟨hPaced.pushes_iff, Cycle.handsAll hPaced.distinct, ?_, hChannel, ?_⟩
    · exact fun target => ⟨hPaced.window_eq target, hPaced.cycle.window_eq target⟩
    · rw [hChannel, Channel.sendAll_tried]

end Agent

end GatewayTelemetry
