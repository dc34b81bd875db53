import GatewayTelemetry.Collection.Node
import GatewayTelemetry.Proofs.Cache.NodeWrite
import GatewayTelemetry.Proofs.Outcome

/-! # What a node cycle updates and hands over

The updated nodes are those resolved nodes that are still cached when the usages arrive and have a
usage reported for their address. However a cycle ends, it publishes just these: one event for each
of them in the order of the listing, or nothing.
-/

namespace GatewayTelemetry

namespace NodeCycle

variable {σ : Type} {s : Sources} {others : Others σ} {now : Nat} {limiter : RateLimiter}
variable {w : World σ} {u : Usages}

def Usages.reports (u : Usages) (address : String) : Bool :=
  (Reported.find? u.cpu address).isSome || (Reported.find? u.memory address).isSome ||
    (Reported.find? u.network address).isSome

def listing (s : Sources) (others : Others σ) (w : World σ) : World σ :=
  World.yield others .readiness ⟨(w.cache.reconcile s.live).1, w.others⟩

def resolution (s : Sources) (others : Others σ) (w : World σ) :
    World σ × List (String × String) :=
  resolve s others (listing s others w).cache.nodes (listing s others w)

def queried (s : Sources) (others : Others σ) (w : World σ) : World σ :=
  (resolution s others w).1.yield others .query

def waited (s : Sources) (others : Others σ) (w : World σ) : World σ :=
  if !s.ready then listing s others w
  else if (resolution s others w).2.isEmpty then (resolution s others w).1
  else queried s others w

def updated (s : Sources) (others : Others σ) (w : World σ) : List String :=
  match s.ready, usages s with
  | true, .ok u =>
    let cached := (queried s others w).cache.names
    ((resolution s others w).2.filter fun r => cached.contains r.1 && u.reports r.2).map (·.1)
  | _, _ => []

theorem usages_eq_ok_iff :
    usages s = .ok u ↔ s.cpu = .ok u.cpu ∧ s.memory = .ok u.memory ∧ s.network = .ok u.network := by
  simp only [usages, bind_eq_ok_iff, pure_eq_ok_iff]
  constructor
  · rintro ⟨_, hCpu, _, hMemory, _, hNetwork, rfl⟩
    exact ⟨hCpu, hMemory, hNetwork⟩
  · rintro ⟨hCpu, hMemory, hNetwork⟩
    exact ⟨_, hCpu, _, hMemory, _, hNetwork, rfl⟩

def Usages.onto (u : Usages) (address : String) (n : NodeRecord) : NodeRecord :=
  { n with
    cpu := (Reported.find? u.cpu address).or n.cpu
    memory := (Reported.find? u.memory address).or n.memory
    network := (Reported.find? u.network address).or n.network }

theorem storePart_of_mem {α : Type} (set : α → NodeRecord → NodeRecord) (part : Option α)
    {node : String} {c : Cache} (hDistinct : c.Distinct) (h : node ∈ c.names) :
    storePart (fun c name a => c.modifyNode name (set a)) node part c =
      .ok (c.adjust node fun n => part.elim n (set · n)) := by
  cases part with
  | none => simp [storePart, Cache.adjust]
  | some a => exact hDistinct.modifyNode h

theorem store_of_mem (u : Usages) {c : Cache} {node : String} (address : String)
    (hDistinct : c.Distinct) (h : node ∈ c.names) :
    store u c node address = .ok (c.adjust node (u.onto address), u.reports address) := by
  let cpu := fun (n : NodeRecord) =>
    (Reported.find? u.cpu address).elim n fun usage => { n with cpu := some usage }
  let memory := fun (n : NodeRecord) =>
    (Reported.find? u.memory address).elim n fun usage => { n with memory := some usage }
  let network := fun (n : NodeRecord) =>
    (Reported.find? u.network address).elim n fun usage => { n with network := some usage }
  have hCpu : ∀ n, (cpu n).name = n.name := by
    intro n
    simp only [cpu]
    cases Reported.find? u.cpu address <;> rfl
  have hMemory : ∀ n, (memory (cpu n)).name = n.name := by
    intro n
    simp only [memory]
    cases Reported.find? u.memory address <;> exact hCpu n
  have hOnto : (fun n => network (memory (cpu n))) = u.onto address := by
    funext n
    simp only [cpu, memory, network, Usages.onto]
    cases Reported.find? u.cpu address <;> cases Reported.find? u.memory address <;>
      cases Reported.find? u.network address <;> rfl
  have hFirst : storePart Cache.setCpu node (Reported.find? u.cpu address) c =
      .ok (c.adjust node cpu) := storePart_of_mem _ _ hDistinct h
  have hSecond : storePart Cache.setMemory node (Reported.find? u.memory address)
      (c.adjust node cpu) = .ok (c.adjust node fun n => memory (cpu n)) := by
    rw [← Cache.adjust_adjust hCpu]
    exact storePart_of_mem _ _ (hDistinct.adjust hCpu) (by rwa [Cache.adjust_names hCpu])
  have hThird : storePart Cache.setNetwork node (Reported.find? u.network address)
      (c.adjust node fun n => memory (cpu n)) = .ok (c.adjust node (u.onto address)) := by
    rw [← hOnto, ← Cache.adjust_adjust hMemory]
    exact storePart_of_mem _ _ (hDistinct.adjust hMemory) (by rwa [Cache.adjust_names hMemory])
  simp only [store, hFirst, hSecond, hThird, bind, Except.bind, pure, Except.pure, Usages.reports]

theorem store_of_not_mem (u : Usages) {c : Cache} {node : String} (address : String)
    (h : node ∉ c.names) :
    store u c node address = .ok (c, false) ∨
      store u c node address = .error (.nodeNotFound node) := by
  have hMissing : ∀ f, c.modifyNode node f = .error (.nodeNotFound node) :=
    fun _ => Cache.modifyNode_of_not_mem h
  unfold store
  cases Reported.find? u.cpu address with
  | some usage =>
    refine .inr ?_
    simp only [storePart, Cache.setCpu, bind, Except.bind, hMissing]
  | none =>
    cases Reported.find? u.memory address with
    | some usage =>
      refine .inr ?_
      simp only [storePart, Cache.setMemory, bind, Except.bind, hMissing]
    | none =>
      cases Reported.find? u.network address with
      | some usage =>
        refine .inr ?_
        simp only [storePart, Cache.setNetwork, bind, Except.bind, hMissing]
      | none => exact .inl rfl

def Usages.overlay (u : Usages) (resolved : List (String × String)) (n : NodeRecord) : NodeRecord :=
  match resolved.find? fun r => r.1 == n.name with
  | some r => u.onto r.2 n
  | none => n

theorem Usages.overlay_cons (u : Usages) (node address : String) (rest : List (String × String))
    (n : NodeRecord) :
    u.overlay ((node, address) :: rest) n =
      if n.name = node then u.onto address n else u.overlay rest n := by
  unfold overlay
  by_cases hName : n.name = node
  · simp [hName]
  · simp [hName, Ne.symm hName]

theorem Usages.overlay_name (u : Usages) (resolved : List (String × String)) (n : NodeRecord) :
    (u.overlay resolved n).name = n.name := by
  unfold overlay
  split <;> rfl

theorem Usages.overlay_of_not_mem (u : Usages) {resolved : List (String × String)} {n : NodeRecord}
    (h : n.name ∉ resolved.map (·.1)) : u.overlay resolved n = n := by
  have hNone : (resolved.find? fun r => r.1 == n.name) = none := by
    rw [List.find?_eq_none]
    intro r hr hName
    exact h (List.mem_map.mpr ⟨r, hr, by simpa using hName⟩)
  simp only [overlay, hNone]

/-- Storing never fails. It puts the usages over all resolved nodes, and tells of those that are
cached and have any. -/
theorem storeAll_eq (u : Usages) {resolved : List (String × String)}
    (hResolved : (resolved.map (·.1)).Nodup) {c : Cache} (hDistinct : c.Distinct) :
    storeAll u resolved c =
      ({ c with nodes := c.nodes.map (u.overlay resolved) },
        .ok ((resolved.filter fun r => c.names.contains r.1 && u.reports r.2).map (·.1))) := by
  induction resolved generalizing c with
  | nil =>
    have hSame : u.overlay [] = id := rfl
    simp [storeAll, hSame]
  | cons r rest ih =>
    obtain ⟨node, address⟩ := r
    obtain ⟨hFresh, hRest⟩ := List.nodup_cons.mp hResolved
    by_cases hMem : node ∈ c.names
    · have hStored := store_of_mem u address hDistinct hMem
      have hName : ∀ n, (u.onto address n).name = n.name := fun _ => rfl
      have hAdjusted : (c.adjust node (u.onto address)).Distinct := hDistinct.adjust hName
      have hLater := ih hRest hAdjusted
      rw [Cache.adjust_names hName] at hLater
      have hOver : (c.adjust node (u.onto address)).nodes.map (u.overlay rest) =
          c.nodes.map (u.overlay ((node, address) :: rest)) := by
        simp only [Cache.adjust, List.map_map]
        apply List.map_congr_left
        intro n _
        rw [Usages.overlay_cons]
        by_cases hSame : n.name = node
        · -- No later pair is of this node, so nothing is put over what it has got now.
          have hLater : (u.onto address n).name ∉ rest.map (·.1) := hSame ▸ hFresh
          simp [hSame, u.overlay_of_not_mem hLater]
        · simp [hSame]
      rw [hOver] at hLater
      cases hReports : u.reports address with
      | true =>
        rw [hReports] at hStored
        simp only [storeAll, hStored, hLater, Except.map]
        simp [hMem, hReports, Cache.adjust]
      | false =>
        rw [hReports] at hStored
        simp only [storeAll, hStored, hLater]
        simp [hReports, Cache.adjust]
    · have hLater := ih hRest hDistinct
      have hOver : c.nodes.map (u.overlay ((node, address) :: rest)) = c.nodes.map (u.overlay rest) := by
        apply List.map_congr_left
        intro n hn
        rw [Usages.overlay_cons, if_neg]
        rintro rfl
        exact hMem (List.mem_map_of_mem hn)
      have hPassed : storeAll u ((node, address) :: rest) c = storeAll u rest c := by
        rcases store_of_not_mem u address hMem with hKept | hError
        · simp only [storeAll, hKept]
        · simp only [storeAll, hError]
      rw [hPassed, hOver, hLater]
      simp [hMem]

theorem resolveNode_found {c : Cache} {n : NodeRecord} {r : String × String}
    (h : (resolveNode s c n).2 = some r) : r.1 = n.name := by
  unfold resolveNode at h
  split at h
  · split at h <;> cases h
  · dsimp only at h
    split at h <;> cases h
    rfl

theorem resolve_names (nodes : List NodeRecord) (w : World σ) :
    ((resolve s others nodes w).2.map (·.1)).Sublist (nodes.map (·.name)) := by
  induction nodes generalizing w with
  | nil => exact List.Sublist.refl []
  | cons n rest ih =>
    simp only [resolve, List.map_append, List.map_cons]
    cases hFound : (resolveNode s (w.yield others (.lookup n.name)).cache n).2 with
    | none => exact (ih _).cons _
    | some r =>
      have hName := resolveNode_found hFound
      simp only [Option.toList_some, List.map_cons, List.map_nil, hName]
      exact (ih _).cons_cons _

theorem resolveNode_adjusts (s : Sources) {c : Cache} (h : c.Distinct) (n : NodeRecord) :
    ∃ f : NodeRecord → NodeRecord, (∀ m, (f m).name = m.name) ∧
      (resolveNode s c n).1 = c.adjust n.name f := by
  have hKept : ∃ f : NodeRecord → NodeRecord, (∀ m, (f m).name = m.name) ∧ c = c.adjust n.name f :=
    ⟨id, fun _ => rfl, by simp [Cache.adjust]⟩
  have hSet : ∀ {address c'}, c.setAddress n.name address = .ok c' →
      ∃ f : NodeRecord → NodeRecord, (∀ m, (f m).name = m.name) ∧ c' = c.adjust n.name f := by
    intro address c' hWrite
    refine ⟨fun m => { m with address := address }, fun _ => rfl, ?_⟩
    by_cases hMem : n.name ∈ c.names
    · exact (Except.ok.inj ((h.modifyNode hMem).symm.trans hWrite)).symm
    · cases (Cache.modifyNode_of_not_mem hMem).symm.trans hWrite
  unfold resolveNode
  cases s.exporterIp n.name with
  | none =>
    dsimp only
    split
    · cases hWrite : c.setAddress n.name none with
      | ok c' => exact hSet hWrite
      | error e => exact hKept
    · exact hKept
  | some ip =>
    dsimp only
    cases hWrite : c.setAddress n.name (some (addressText ip s.exporterPort)) with
    | ok c' => exact hSet hWrite
    | error e => exact hKept

theorem resolveNode_names (s : Sources) {c : Cache} (h : c.Distinct) (n : NodeRecord) :
    (resolveNode s c n).1.names = c.names := by
  obtain ⟨f, hName, hAdjusted⟩ := resolveNode_adjusts s h n
  rw [hAdjusted, Cache.adjust_names hName]

theorem resolve_distinct (nodes : List NodeRecord) {w : World σ} (h : w.cache.Distinct) :
    (resolve s others nodes w).1.cache.Distinct := by
  induction nodes generalizing w with
  | nil => exact h
  | cons n rest ih =>
    have hWaited : (w.yield others (.lookup n.name)).cache.Distinct := h.applyAll _
    simp only [resolve]
    apply ih
    unfold Cache.Distinct
    rwa [resolveNode_names s hWaited]

section Stages

variable (s : Sources) (others : Others σ) {w : World σ} (h : w.cache.Distinct)
include h

theorem listing_distinct : (listing s others w).cache.Distinct := (h.reconcile s.live).applyAll _

theorem resolution_distinct : (resolution s others w).1.cache.Distinct :=
  resolve_distinct _ (listing_distinct s others h)

theorem queried_distinct : (queried s others w).cache.Distinct :=
  (resolution_distinct s others h).applyAll _

theorem waited_distinct : (waited s others w).cache.Distinct := by
  unfold waited
  split
  · exact listing_distinct s others h
  · split
    · exact resolution_distinct s others h
    · exact queried_distinct s others h

theorem resolution_nodup : ((resolution s others w).2.map (·.1)).Nodup :=
  (listing_distinct s others h).sublist (resolve_names _ _)

end Stages

theorem publish_nil (now : Nat) (limiter : RateLimiter) (c : Cache) :
    publish now limiter c [] = (limiter, []) := rfl

theorem publish_of_isReady {c : Cache} {names : List String} (hNames : names ≠ [])
    (h : limiter.isReady now = true) :
    publish now limiter c names =
      ({ limiter with last := some now }, (names.filterMap c.node?).map event) := by
  simp [publish, hNames, RateLimiter.tryAcquire_of_isReady h]

theorem publish_of_not_isReady {c : Cache} {names : List String} (h : limiter.isReady now = false) :
    publish now limiter c names = (limiter, []) := by
  unfold publish
  rw [RateLimiter.tryAcquire_of_not_isReady h]
  split <;> rfl

theorem publish_events (now : Nat) (limiter : RateLimiter) (c : Cache) (names : List String) :
    (publish now limiter c names).2 = [] ∨
      (publish now limiter c names).2 = (names.filterMap c.node?).map event := by
  unfold publish
  split
  · exact .inl rfl
  · split
    · exact .inr rfl
    · exact .inl rfl

theorem events_of_cached {c : Cache} {names : List String} (h : ∀ name ∈ names, name ∈ c.names) :
    ((names.filterMap c.node?).map event).map some =
      names.map fun name => (c.node? name).map event := by
  induction names with
  | nil => rfl
  | cons name rest ih =>
    have hRest := ih fun x hx => h x (List.mem_cons_of_mem name hx)
    have hSome : (c.node? name).isSome := (c.node?_isSome name).mpr (h name List.mem_cons_self)
    obtain ⟨n, hFound⟩ := Option.isSome_iff_exists.mp hSome
    rw [List.filterMap_cons_some hFound, List.map_cons, List.map_cons, List.map_cons, hFound, hRest]
    rfl

theorem run_eq (s : Sources) (others : Others σ) (now : Nat) (limiter : RateLimiter) (w : World σ) :
    run s others now limiter w =
      if !s.ready then ⟨listing s others w, limiter, [], .ok ()⟩
      else if (resolution s others w).2.isEmpty then
        ⟨(resolution s others w).1, limiter, [], .ok ()⟩
      else finish s now limiter (resolution s others w).2 (queried s others w) := rfl

/-- A cycle ends with nothing updated, failing if a query has failed, or it puts the usages over the
resolved nodes and publishes those it updated. -/
theorem run_cases (s : Sources) (others : Others σ) (now : Nat) (limiter : RateLimiter)
    {w : World σ} (h : w.cache.Distinct) :
    (∃ outcome, run s others now limiter w = ⟨waited s others w, limiter, [], outcome⟩ ∧
        updated s others w = [] ∧
        ∀ e, outcome = .error e → ∃ f, usages s = .error f ∧ e = .source f) ∨
      ∃ u c, s.ready = true ∧ usages s = .ok u ∧ waited s others w = queried s others w ∧
        c = { (queried s others w).cache with
              nodes := (queried s others w).cache.nodes.map (u.overlay (resolution s others w).2) } ∧
        run s others now limiter w =
          ⟨⟨c, (queried s others w).others⟩, (publish now limiter c (updated s others w)).1,
            (publish now limiter c (updated s others w)).2, .ok ()⟩ := by
  rw [run_eq, waited]
  cases hReady : s.ready with
  | false => exact .inl ⟨_, rfl, by simp [updated, hReady], nofun⟩
  | true =>
    by_cases hNone : (resolution s others w).2 = []
    · refine .inl ⟨.ok (), by simp [hNone], ?_, nofun⟩
      unfold updated
      split <;> simp [hNone]
    · simp only [Bool.not_true, Bool.false_eq_true, if_false, List.isEmpty_iff, hNone, finish]
      cases hUsages : usages s with
      | error f =>
        have hUpdated : updated s others w = [] := by simp [updated, hReady, hUsages]
        cases f with
        | unreachable detail => exact .inl ⟨_, rfl, hUpdated, nofun⟩
        | missing detail | query detail =>
          refine .inl ⟨_, rfl, hUpdated, ?_⟩
          rintro _ ⟨⟩
          exact ⟨_, rfl, rfl⟩
      | ok u =>
        have hStored := storeAll_eq u (resolution_nodup s others h) (queried_distinct s others h)
        refine .inr ⟨u, _, trivial, rfl, trivial, rfl, ?_⟩
        simp only [hStored, updated, hReady, hUsages]

theorem run_distinct (s : Sources) (others : Others σ) (now : Nat) (limiter : RateLimiter)
    {w : World σ} (h : w.cache.Distinct) : (run s others now limiter w).world.cache.Distinct := by
  rcases run_cases s others now limiter h with ⟨_, hRun, _, _⟩ | ⟨u, c, _, _, _, rfl, hRun⟩
  · rw [hRun]
    exact waited_distinct s others h
  · have hQueried := queried_distinct s others h
    rw [hRun]
    unfold Cache.Distinct Cache.names at hQueried ⊢
    simpa [Function.comp_def, Usages.overlay_name] using hQueried

theorem updated_cached (s : Sources) (others : Others σ) (w : World σ) :
    ∀ name ∈ updated s others w, name ∈ (queried s others w).cache.names := by
  unfold updated
  split
  · intro name hName
    obtain ⟨r, hr, rfl⟩ := List.mem_map.mp hName
    have hKept := (List.mem_filter.mp hr).2
    simp only [Bool.and_eq_true, List.contains_eq_mem, decide_eq_true_eq] at hKept
    exact hKept.1
  · exact fun _ hName => absurd hName List.not_mem_nil

theorem run_publishes (s : Sources) (others : Others σ) (now : Nat) (limiter : RateLimiter)
    {w : World σ} (h : w.cache.Distinct) :
    publish now limiter (run s others now limiter w).world.cache (updated s others w) =
        ((run s others now limiter w).limiter, (run s others now limiter w).events) ∧
      ∀ name ∈ updated s others w, name ∈ (run s others now limiter w).world.cache.names := by
  rcases run_cases s others now limiter h with ⟨_, hRun, hUpdated, _⟩ | ⟨u, c, _, _, _, rfl, hRun⟩
  · rw [hRun, hUpdated]
    exact ⟨rfl, fun _ hName => absurd hName List.not_mem_nil⟩
  · rw [hRun]
    refine ⟨rfl, ?_⟩
    intro name hName
    have hCached := updated_cached s others w name hName
    unfold Cache.names at hCached ⊢
    simpa [Function.comp_def, Usages.overlay_name] using hCached

theorem updated_sublist (s : Sources) (others : Others σ) (w : World σ) :
    (updated s others w).Sublist (listing s others w).cache.names := by
  unfold updated
  split
  · exact (List.filter_sublist.map _).trans (resolve_names _ _)
  · exact List.nil_sublist _

end NodeCycle

end GatewayTelemetry
