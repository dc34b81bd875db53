import GatewayTelemetry.Proofs.Cache.EndpointWrite
import GatewayTelemetry.Proofs.Cache.NodeHistory
import GatewayTelemetry.Proofs.Collection.Undisturbed

/-! # A node cycle with others at work

Whatever others do to the cache at the points at which a cycle waits, the cycle only changes nodes
that it has listed and that are still there. Apart from these the cache is what the operations of
the others make of it, as `Beside` says of every stage of a cycle.
-/

namespace GatewayTelemetry.NodeCycle

open Cache (Operation)

variable {σ : Type} {s : Sources} {others : Others σ}

def Others.operations (others : Others σ) : List Point → σ → List Operation
  | [], _ => []
  | point :: rest, x => (others point x).1 ++ others.operations rest (others point x).2

def listed (s : Sources) (others : Others σ) (w : World σ) : List String :=
  if s.ready then (listing s others w).cache.names else []

def points (s : Sources) (others : Others σ) (w : World σ) : List Point :=
  .readiness :: (listed s others w).map .lookup ++
    if s.ready && !(resolution s others w).2.isEmpty then [.query] else []

theorem after_append (others : Others σ) (first second : List Point) (x : σ) :
    others.after (first ++ second) x = others.after second (others.after first x) := by
  simp [Others.after]

theorem operations_append (others : Others σ) (first second : List Point) (x : σ) :
    others.operations (first ++ second) x =
      others.operations first x ++ others.operations second (others.after first x) := by
  induction first generalizing x with
  | nil => rfl
  | cons point rest ih => simp [Others.operations, ih, Others.after]

/-- A cache on which a cycle has worked too, and the cache without its work. -/
structure Beside (listed : List String) (c alone : Cache) : Prop where
  distinct : c.Distinct
  names_eq : c.names = alone.names
  node_eq : ∀ name ∉ listed, c.node? name = alone.node? name
  endpoints_eq : c.endpoints = alone.endpoints

namespace Beside

variable {listed : List String} {c alone : Cache}

theorem refl (h : c.Distinct) : Beside listed c c := ⟨h, rfl, fun _ _ => rfl, rfl⟩

theorem apply (h : Beside listed c alone) (op : Operation) :
    Beside listed (c.apply op).1 (alone.apply op).1 := by
  have hAlone : alone.Distinct := by
    unfold Cache.Distinct
    rw [← h.names_eq]
    exact h.distinct
  refine ⟨h.distinct.apply op, ?_, ?_, Cache.apply_endpoints_congr h.endpoints_eq op⟩
  · rw [Cache.apply_names h.distinct, Cache.apply_names hAlone, h.names_eq]
  · intro name hElse
    rw [Cache.node?_apply h.distinct, Cache.node?_apply hAlone, h.names_eq, h.node_eq name hElse]

theorem applyAll (h : Beside listed c alone) (operations : List Operation) :
    Beside listed (c.applyAll operations) (alone.applyAll operations) := by
  induction operations generalizing c alone with
  | nil => exact h
  | cons op rest ih => exact ih (h.apply op)

theorem own (h : Beside listed c alone) {f : NodeRecord → NodeRecord}
    (hName : ∀ n, (f n).name = n.name) (hElse : ∀ n, n.name ∉ listed → f n = n) :
    Beside listed { c with nodes := c.nodes.map f } alone := by
  have hNames : Cache.names { c with nodes := c.nodes.map f } = c.names := by
    simp [Cache.names, Function.comp_def, hName]
  refine ⟨?_, hNames.trans h.names_eq, ?_, h.endpoints_eq⟩
  · unfold Cache.Distinct
    rw [hNames]
    exact h.distinct
  · intro name hOther
    have hKept : Cache.node? { c with nodes := c.nodes.map f } name = c.node? name := by
      rw [Cache.node?, Cache.find?_map_name hName]
      show (c.node? name).map f = c.node? name
      cases hFound : c.node? name with
      | none => rfl
      | some n =>
        have hn : n.name = name := by simpa using List.find?_some hFound
        rw [Option.map_some, hElse n (hn ▸ hOther)]
    rw [hKept, h.node_eq name hOther]

theorem resolveNode (h : Beside listed c alone) (s : Sources) {n : NodeRecord}
    (hListed : n.name ∈ listed) : Beside listed (resolveNode s c n).1 alone := by
  obtain ⟨f, hName, hAdjusted⟩ := resolveNode_adjusts s h.distinct n
  rw [hAdjusted]
  apply h.own
  · intro m
    split
    · exact hName m
    · rfl
  · intro m hOther
    refine if_neg ?_
    rintro hSame
    exact hOther (hSame ▸ hListed)

end Beside

/-- The world at some stage of a cycle, reached from `start` by way of these points. -/
structure Reached (others : Others σ) (listed : List String) (start : World σ) (points : List Point)
    (w : World σ) : Prop where
  others_eq : w.others = others.after points start.others
  beside : Beside listed w.cache (start.cache.applyAll (others.operations points start.others))

namespace Reached

variable {listed : List String} {start w : World σ} {points : List Point}

theorem begun (h : w.cache.Distinct) : Reached others listed w [] w := ⟨rfl, .refl h⟩

theorem yield (h : Reached others listed start points w) (point : Point) :
    Reached others listed start (points ++ [point]) (w.yield others point) := by
  constructor
  · rw [after_append, ← h.others_eq]
    rfl
  · rw [operations_append, Cache.applyAll_append, ← h.others_eq]
    simpa [Others.operations, World.yield] using h.beside.applyAll (others point w.others).1

theorem resolve (h : Reached others listed start points w) (s : Sources) (nodes : List NodeRecord)
    (hListed : ∀ n ∈ nodes, n.name ∈ listed) :
    Reached others listed start (points ++ (nodes.map (·.name)).map .lookup)
      (resolve s others nodes w).1 := by
  induction nodes generalizing points w with
  | nil => simpa [NodeCycle.resolve] using h
  | cons n rest ih =>
    obtain ⟨hFirst, hRest⟩ := List.forall_mem_cons.mp hListed
    have hAsked := h.yield (.lookup n.name)
    have hWritten : Reached others listed start (points ++ [.lookup n.name])
        ⟨(resolveNode s (w.yield others (.lookup n.name)).cache n).1,
          (w.yield others (.lookup n.name)).others⟩ :=
      ⟨hAsked.others_eq, hAsked.beside.resolveNode s hFirst⟩
    simpa [NodeCycle.resolve] using ih hWritten hRest

end Reached

/-- What others do is all that happens, but for writes to listed nodes, until a cycle has passed its
last point. -/
theorem waited_reached (s : Sources) (others : Others σ) {w : World σ} (h : w.cache.Distinct) :
    Reached others (listed s others w) ⟨(w.cache.reconcile s.live).1, w.others⟩ (points s others w)
      (waited s others w) := by
  have hListing : Reached others (listed s others w) ⟨(w.cache.reconcile s.live).1, w.others⟩
      [.readiness] (listing s others w) := (Reached.begun (h.reconcile s.live)).yield .readiness
  unfold waited points
  cases hReady : s.ready with
  | false =>
    have hNone : listed s others w = [] := by simp [listed, hReady]
    simpa [hNone] using hListing
  | true =>
    have hListed : listed s others w = (listing s others w).cache.nodes.map (·.name) := by
      simp [listed, hReady, Cache.names]
    have hResolution : Reached others (listed s others w) ⟨(w.cache.reconcile s.live).1, w.others⟩
        (.readiness :: (listed s others w).map .lookup) (resolution s others w).1 := by
      have hAll := hListing.resolve s (listing s others w).cache.nodes fun n hn =>
        hListed ▸ List.mem_map_of_mem hn
      rwa [← hListed] at hAll
    cases hNone : (resolution s others w).2.isEmpty with
    | true => simpa using hResolution
    | false => exact hResolution.yield .query

theorem updated_listed (s : Sources) (others : Others σ) (w : World σ) :
    (updated s others w).Sublist (listed s others w) := by
  unfold listed
  split
  · exact updated_sublist s others w
  · rename_i hReady
    have hNone : updated s others w = [] := by simp [updated, hReady]
    rw [hNone]

section Whole

variable (s : Sources) (others : Others σ) (now : Nat) (limiter : RateLimiter) {w : World σ}
  (h : w.cache.Distinct)
include h

theorem run_reached :
    Reached others (listed s others w) ⟨(w.cache.reconcile s.live).1, w.others⟩ (points s others w)
      (run s others now limiter w).world := by
  have hWaited := waited_reached s others h
  rcases run_cases s others now limiter h with ⟨_, hRun, _⟩ | ⟨u, c, hReady, _, hSame, rfl, hRun⟩
  · rwa [hRun]
  · rw [hSame] at hWaited
    rw [hRun]
    -- The usages go to resolved nodes only, and these have been listed.
    refine ⟨hWaited.others_eq, hWaited.beside.own (u.overlay_name _) ?_⟩
    intro n hElse
    apply u.overlay_of_not_mem
    intro hResolved
    apply hElse
    simp only [listed, hReady, if_true]
    exact (resolve_names _ _).subset hResolved

theorem run_outcome {e : AgentError} (hFailed : (run s others now limiter w).outcome = .error e) :
    ∃ f, s.failure? = some f ∧ e = .source f := by
  rcases run_cases s others now limiter h with ⟨_, hRun, _, hOutcome⟩ | ⟨u, c, _, _, _, rfl, hRun⟩
  · rw [hRun] at hFailed
    obtain ⟨f, hUsages, rfl⟩ := hOutcome e hFailed
    rcases failure_or_usages s with ⟨f', hFailure, hUsages'⟩ | ⟨u, _, hUsages'⟩
    · cases hUsages.symm.trans hUsages'
      exact ⟨f, hFailure, rfl⟩
    · cases hUsages.symm.trans hUsages'
  · rw [hRun] at hFailed
    cases hFailed

theorem run_events :
    ∃ names : List String, names.Sublist (listed s others w) ∧
      (run s others now limiter w).events.map some = names.map fun name =>
        ((run s others now limiter w).world.cache.node? name).map fun n =>
          ⟨.modified, .node, n.encode⟩ := by
  obtain ⟨hPublish, hCached⟩ := run_publishes s others now limiter h
  have hEvents := publish_events now limiter (run s others now limiter w).world.cache
    (updated s others w)
  rw [hPublish] at hEvents
  rcases hEvents with hSilent | hPushed
  · refine ⟨[], List.nil_sublist _, ?_⟩
    dsimp only at hSilent
    rw [hSilent]
    rfl
  · refine ⟨updated s others w, updated_listed s others w, ?_⟩
    dsimp only at hPushed
    rw [hPushed]
    exact events_of_cached hCached

end Whole

theorem encode_name {n m : NodeRecord} (h : n.encode = m.encode) : n.name = m.name := by
  simp only [NodeRecord.encode, Json.obj.injEq, List.cons.injEq, Prod.mk.injEq, true_and,
    Json.str.injEq] at h
  exact h.2.2.2.1

/-- A cycle with others at work, from a cache with any past. It fails only if a query fails. Its own
writes insert no node, change only nodes that it listed, and no endpoint: all else is what the others
make of the reconciled cache. So a node that they remove and do not insert again is gone and gets no
event. Each event holds a record as cached in the end. -/
theorem disturbed_cycle (s : Sources) (others : Others σ) (now : Nat) (limiter : RateLimiter)
    (past : List Operation) (x : σ) :
    let w : World σ := ⟨Cache.empty.applyAll past, x⟩
    let foreign := others.operations (points s others w) x
    let alone := (w.cache.reconcile s.live).1.applyAll foreign
    let r := run s others now limiter w
    r.world.others = others.after (points s others w) x ∧
      (∀ e, r.outcome = .error e → ∃ f, s.failure? = some f ∧ e = .source f) ∧
      r.world.cache.names = alone.names ∧
      (∀ before op after name, foreign = before ++ op :: after → op.expels name = true →
        (∀ later ∈ after, ¬ later.Brings name) →
          name ∉ r.world.cache.names ∧
            ∀ n : NodeRecord, n.name = name → ⟨.modified, .node, n.encode⟩ ∉ r.events) ∧
      (∀ name ∉ listed s others w, r.world.cache.node? name = alone.node? name) ∧
      (∃ names : List String, names.Sublist (listed s others w) ∧
        r.events.map some = names.map fun name =>
          (r.world.cache.node? name).map fun n => ⟨.modified, .node, n.encode⟩) ∧
      r.world.cache.endpoints = (w.cache.applyAll foreign).endpoints := by
  intro w foreign alone r
  have hDistinct : w.cache.Distinct := Cache.distinct_applyAll past
  obtain ⟨hOthers, hBeside⟩ := run_reached s others now limiter hDistinct
  obtain ⟨names, hListed, hEvents⟩ := run_events s others now limiter hDistinct
  refine ⟨hOthers, fun e => run_outcome s others now limiter hDistinct, hBeside.names_eq, ?_,
    hBeside.node_eq, ⟨names, hListed, hEvents⟩, ?_⟩
  · intro before op after name hSplit hExpels hBrings
    have hGone : name ∉ r.world.cache.names := by
      rw [hBeside.names_eq, show others.operations _ _ = _ from hSplit, Cache.applyAll_append]
      have hBefore := (hDistinct.reconcile s.live).applyAll before
      exact Cache.not_mem_applyAll (hBefore.apply op) (Cache.not_mem_of_expelled hBefore hExpels)
        hBrings
    refine ⟨hGone, ?_⟩
    rintro n rfl hEvent
    have hSome : some ⟨.modified, .node, n.encode⟩ ∈ r.events.map some :=
      List.mem_map_of_mem hEvent
    rw [hEvents] at hSome
    obtain ⟨name, _, hFound⟩ := List.mem_map.mp hSome
    obtain ⟨m, hCached, hSame⟩ := Option.map_eq_some_iff.mp hFound
    have hName : m.name = name := by simpa using List.find?_some hCached
    apply hGone
    rw [← encode_name (Event.mk.inj hSame).2.2, hName]
    exact (r.world.cache.node?_isSome name).mp (Option.isSome_of_mem hCached)
  · have hReconciled : (w.cache.reconcile s.live).1.endpoints = w.cache.endpoints := rfl
    exact hBeside.endpoints_eq.trans (Cache.applyAll_endpoints_congr hReconciled foreign)

end GatewayTelemetry.NodeCycle
