import GatewayTelemetry.Proofs.Cache.Reconciliation
import GatewayTelemetry.Proofs.Collection.Node

/-! # A node cycle with nobody else at work

When nobody else works on the cache, what a cycle leaves can be said from what its sources answer:
the live nodes, each with the address that was found for it and, if all queries succeed, with what
was first reported for that address.
-/

namespace GatewayTelemetry

theorem Cache.adjust_split {c : Cache} (hDistinct : c.Distinct) {done rest : List NodeRecord}
    {n : NodeRecord} (h : c.nodes = done ++ n :: rest) (f : NodeRecord → NodeRecord) :
    c.adjust n.name f = { c with nodes := done ++ f n :: rest } := by
  have hNames : (done.map (·.name) ++ n.name :: rest.map (·.name)).Nodup := by
    simpa [Cache.Distinct, Cache.names, h] using hDistinct
  obtain ⟨_, hTail, hApart⟩ := List.nodup_append.mp hNames
  have hOthers : ∀ nodes : List NodeRecord, (∀ m ∈ nodes, m.name ≠ n.name) →
      nodes.map (fun m => if m.name = n.name then f m else m) = nodes := by
    intro nodes hNe
    rw [List.map_congr_left, List.map_id]
    exact fun m hm => if_neg (hNe m hm)
  have hDone := hOthers done fun m hm hSame =>
    hApart m.name (List.mem_map_of_mem hm) n.name List.mem_cons_self hSame
  have hRest := hOthers rest fun m hm hSame =>
    (List.nodup_cons.mp hTail).1 (hSame ▸ List.mem_map_of_mem hm)
  rw [Cache.adjust, h, List.map_append, List.map_cons, hDone, hRest, if_pos rfl]

namespace NodeCycle

variable {σ : Type} {s : Sources} {u : Usages} {others : Others σ}

def Others.Quiet (others : Others σ) : Prop := ∀ point x, (others point x).1 = []

def Others.after (others : Others σ) (points : List Point) (x : σ) : σ :=
  points.foldl (fun x point => (others point x).2) x

theorem Others.Quiet.yield (h : others.Quiet) (point : Point) (c : Cache) (x : σ) :
    World.yield others point ⟨c, x⟩ = ⟨c, others.after [point] x⟩ := by
  simp [World.yield, h point x, Others.after]

def Sources.address? (s : Sources) (name : String) : Option String :=
  (s.exporterIp name).map fun ip => addressText ip s.exporterPort

def Sources.addressed (s : Sources) (n : NodeRecord) : NodeRecord :=
  { n with address := s.address? n.name }

def Sources.resolved (s : Sources) (listed : List NodeRecord) : List (String × String) :=
  listed.filterMap fun n => (s.address? n.name).map (n.name, ·)

theorem resolveNode_split (s : Sources) {c : Cache} (hDistinct : c.Distinct)
    {done rest : List NodeRecord} {n : NodeRecord} (h : c.nodes = done ++ n :: rest) :
    resolveNode s c n =
      ({ c with nodes := done ++ s.addressed n :: rest },
        (s.address? n.name).map (n.name, ·)) := by
  have hMem : n.name ∈ c.names := List.mem_map_of_mem (by simp [h])
  have hSet : ∀ address, c.setAddress n.name address =
      .ok { c with nodes := done ++ { n with address := address } :: rest } := by
    intro address
    rw [Cache.setAddress, hDistinct.modifyNode hMem, Cache.adjust_split hDistinct h]
  unfold resolveNode Sources.addressed Sources.address?
  cases s.exporterIp n.name with
  | some ip =>
    dsimp only
    rw [hSet]
    rfl
  | none =>
    cases hOld : n.address with
    | some address =>
      dsimp only
      rw [hSet]
      rfl
    | none =>
      have hSame : { n with address := none } = n := by rw [← hOld]
      simp only [Option.isSome_none, Bool.false_eq_true, if_false, Option.map_none, hSame, ← h]

theorem Others.Quiet.resolve (hQuiet : others.Quiet) (s : Sources) {c : Cache}
    (hDistinct : c.Distinct) (x : σ) {done rest : List NodeRecord} (h : c.nodes = done ++ rest) :
    resolve s others rest ⟨c, x⟩ =
      (⟨{ c with nodes := done ++ rest.map s.addressed },
          others.after (rest.map fun n => .lookup n.name) x⟩,
        s.resolved rest) := by
  induction rest generalizing c done x with
  | nil =>
    rw [List.append_nil] at h
    simp [NodeCycle.resolve, Sources.resolved, Others.after, ← h]
  | cons n rest ih =>
    have hFirst := resolveNode_split s hDistinct h
    have hStep : Cache.Distinct { c with nodes := done ++ s.addressed n :: rest } := by
      simpa [Cache.Distinct, Cache.names, h, Sources.addressed] using hDistinct
    have hNodes : done ++ s.addressed n :: rest = (done ++ [s.addressed n]) ++ rest := by simp
    have hRest := ih hStep (others.after [.lookup n.name] x) hNodes
    simp only [NodeCycle.resolve, hQuiet.yield, hFirst]
    rw [hRest, Sources.resolved, Sources.resolved]
    simp only [List.map_cons, List.append_assoc, List.cons_append, List.filterMap_cons,
      List.nil_append, Others.after, List.foldl_cons, List.foldl_nil]
    cases s.address? n.name <;> rfl

def Sources.stored (s : Sources) (u : Usages) (n : NodeRecord) : NodeRecord :=
  match s.address? n.name with
  | some address => u.onto address (s.addressed n)
  | none => s.addressed n

def Sources.updates (s : Sources) (u : Usages) (n : NodeRecord) : Bool :=
  (s.address? n.name).any u.reports

theorem resolved_names (s : Sources) (listed : List NodeRecord) :
    ((s.resolved listed).map (·.1)).Sublist (listed.map (·.name)) := by
  induction listed with
  | nil => exact List.Sublist.refl []
  | cons n rest ih =>
    unfold Sources.resolved at ih ⊢
    rw [List.filterMap_cons, List.map_cons]
    cases s.address? n.name with
    | none => exact ih.cons _
    | some address => exact ih.cons_cons _

theorem resolved_find? (s : Sources) {listed : List NodeRecord} {n : NodeRecord} (h : n ∈ listed) :
    ((s.resolved listed).find? fun r => r.1 == n.name) = (s.address? n.name).map (n.name, ·) := by
  cases hFound : (s.resolved listed).find? fun r => r.1 == n.name with
  | some r =>
    obtain ⟨m, _, hPair⟩ := List.mem_filterMap.mp (List.mem_of_find?_eq_some hFound)
    obtain ⟨address, hAddress, rfl⟩ := Option.map_eq_some_iff.mp hPair
    have hName : m.name = n.name := by simpa using List.find?_some hFound
    rw [← hName, hAddress]
    rfl
  | none =>
    cases hAddress : s.address? n.name with
    | none => rfl
    | some address =>
      have hPair : (n.name, address) ∈ s.resolved listed :=
        List.mem_filterMap.mpr ⟨n, h, by rw [hAddress]; rfl⟩
      simpa using List.find?_eq_none.mp hFound _ hPair

theorem overlay_addressed (u : Usages) {listed : List NodeRecord} {n : NodeRecord}
    (h : n ∈ listed) : u.overlay (s.resolved listed) (s.addressed n) = s.stored u n := by
  have hFind := resolved_find? s h
  unfold Usages.overlay Sources.stored
  rw [show (s.addressed n).name = n.name from rfl, hFind]
  cases s.address? n.name <;> rfl

theorem stored_name (s : Sources) (u : Usages) (n : NodeRecord) : (s.stored u n).name = n.name := by
  unfold Sources.stored
  cases s.address? n.name <;> rfl

theorem updated_names (s : Sources) (u : Usages) {listed : List NodeRecord} {names : List String}
    (h : ∀ n ∈ listed, n.name ∈ names) :
    ((s.resolved listed).filter fun r => names.contains r.1 && u.reports r.2).map (·.1) =
      (listed.filter (s.updates u)).map (·.name) := by
  induction listed with
  | nil => rfl
  | cons n rest ih =>
    have hRest := ih fun m hm => h m (List.mem_cons_of_mem n hm)
    have hMem : n.name ∈ names := h n List.mem_cons_self
    unfold Sources.resolved at hRest ⊢
    rw [List.filterMap_cons, List.filter_cons]
    cases hAddress : s.address? n.name with
    | none => simpa [Sources.updates, hAddress] using hRest
    | some address =>
      cases hReports : u.reports address with
      | true => simpa [Sources.updates, hAddress, hReports, hMem] using hRest
      | false => simpa [Sources.updates, hAddress, hReports] using hRest

theorem node?_of_mem {c : Cache} (hDistinct : c.Distinct) {n : NodeRecord} (h : n ∈ c.nodes) :
    c.node? n.name = some n := by
  cases hFound : c.node? n.name with
  | none => simpa using List.find?_eq_none.mp hFound n h
  | some m =>
    have hName : m.name = n.name := by simpa using List.find?_some hFound
    rw [List.inj_on_of_nodup_map hDistinct (List.mem_of_find?_eq_some hFound) h hName]

def failure? {α : Type} : Except SourceError α → Option SourceError
  | .ok _ => none
  | .error e => some e

def Sources.failure? (s : Sources) : Option SourceError :=
  (NodeCycle.failure? s.cpu).or ((NodeCycle.failure? s.memory).or (NodeCycle.failure? s.network))

theorem failure_or_usages (s : Sources) :
    (∃ e, s.failure? = some e ∧ usages s = .error e) ∨
      ∃ u, s.failure? = none ∧ usages s = .ok u := by
  unfold Sources.failure? usages
  cases s.cpu with
  | error e => exact .inl ⟨e, rfl, rfl⟩
  | ok cpu =>
    cases s.memory with
    | error e => exact .inl ⟨e, rfl, rfl⟩
    | ok memory =>
      cases s.network with
      | error e => exact .inl ⟨e, rfl, rfl⟩
      | ok network => exact .inr ⟨⟨cpu, memory, network⟩, rfl, rfl⟩

theorem usages_of_failure {e : SourceError} (h : s.failure? = some e) : usages s = .error e := by
  rcases failure_or_usages s with ⟨e', hFailure, hUsages⟩ | ⟨u, hNone, _⟩
  · cases h.symm.trans hFailure
    exact hUsages
  · cases h.symm.trans hNone

def afterFailure : SourceError → Except AgentError Unit
  | .unreachable _ => .ok ()
  | e => .error (.source e)

section Whole

variable {now : Nat} {limiter : RateLimiter} {c : Cache} {listed : List NodeRecord}

theorem finish_of_failure {e : SourceError} (h : s.failure? = some e)
    (resolved : List (String × String)) (w : World σ) :
    finish s now limiter resolved w = ⟨w, limiter, [], afterFailure e⟩ := by
  rw [finish, usages_of_failure h]
  cases e <;> rfl

theorem filterMap_stored (hDistinct : Cache.Distinct { c with nodes := listed.map (s.stored u) })
    {part : List NodeRecord} (hPart : ∀ n ∈ part, n ∈ listed) :
    (part.map (·.name)).filterMap (Cache.node? { c with nodes := listed.map (s.stored u) }) =
      part.map (s.stored u) := by
  have hFound : ∀ n ∈ part,
      Cache.node? { c with nodes := listed.map (s.stored u) } n.name = some (s.stored u n) := by
    intro n hn
    rw [← stored_name s u n]
    exact node?_of_mem hDistinct (List.mem_map_of_mem (hPart n hn))
  rw [List.filterMap_map, Function.comp_def, List.filterMap_congr hFound]
  exact congrFun List.filterMap_eq_map _

theorem finish_of_usages (hDistinct : c.Distinct) (hNodes : c.nodes = listed.map s.addressed)
    (hUsages : usages s = .ok u) (x : σ) :
    finish s now limiter (s.resolved listed) ⟨c, x⟩ =
      ⟨⟨{ c with nodes := listed.map (s.stored u) }, x⟩,
        if listed.filter (s.updates u) ≠ [] ∧ limiter.isReady now = true then
          { limiter with last := some now }
        else limiter,
        if limiter.isReady now then ((listed.filter (s.updates u)).map (s.stored u)).map event
        else [], .ok ()⟩ := by
  have hListed : c.names = listed.map (·.name) := by
    rw [Cache.names, hNodes, List.map_map]
    rfl
  have hResolved : ((s.resolved listed).map (·.1)).Nodup :=
    List.Nodup.sublist (resolved_names s listed) (hListed ▸ hDistinct)
  have hStoredAll := storeAll_eq u hResolved hDistinct
  have hStored : c.nodes.map (u.overlay (s.resolved listed)) = listed.map (s.stored u) := by
    rw [hNodes, List.map_map]
    exact List.map_congr_left fun n hn => overlay_addressed u hn
  have hNames : ∀ n ∈ listed, n.name ∈ c.names := by
    intro n hn
    rw [hListed]
    exact List.mem_map_of_mem hn
  rw [hStored, updated_names s u hNames] at hStoredAll
  have hAfter : Cache.Distinct { c with nodes := listed.map (s.stored u) } := by
    rw [Cache.Distinct, Cache.names, List.map_map]
    rwa [Cache.Distinct, hListed, ← List.map_congr_left fun m _ => stored_name s u m] at hDistinct
  have hEvents := filterMap_stored hAfter fun n (hn : n ∈ listed.filter (s.updates u)) =>
    (List.mem_filter.mp hn).1
  simp only [finish, hUsages, hStoredAll]
  cases hReady : limiter.isReady now with
  | false => simp [publish_of_not_isReady hReady]
  | true =>
    by_cases hNone : listed.filter (s.updates u) = []
    · simp [hNone, publish_nil]
    · have hSome : (listed.filter (s.updates u)).map (·.name) ≠ [] := by simpa using hNone
      simp [publish_of_isReady hSome hReady, hEvents, hNone]

theorem resolved_isEmpty (s : Sources) (listed : List NodeRecord) :
    (s.resolved listed).isEmpty = true ↔ ∀ n ∈ listed, s.address? n.name = none := by
  simp only [Sources.resolved, List.isEmpty_iff, List.filterMap_eq_nil_iff, Option.map_eq_none_iff]

theorem Others.Quiet.run (hQuiet : others.Quiet) (s : Sources) (now : Nat) (limiter : RateLimiter)
    (hDistinct : c.Distinct) (x : σ)
    (hListed : (c.reconcile s.live).1 = { c with nodes := listed }) :
    run s others now limiter ⟨c, x⟩ =
      if !s.ready then
        ⟨⟨{ c with nodes := listed }, others.after [.readiness] x⟩, limiter, [], .ok ()⟩
      else if (s.resolved listed).isEmpty then
        ⟨⟨{ c with nodes := listed.map s.addressed },
          others.after (.readiness :: listed.map fun n => .lookup n.name) x⟩, limiter, [], .ok ()⟩
      else finish s now limiter (s.resolved listed)
        ⟨{ c with nodes := listed.map s.addressed },
          others.after ((.readiness :: listed.map fun n => .lookup n.name) ++ [.query]) x⟩ := by
  have hListing : listing s others ⟨c, x⟩ =
      ⟨{ c with nodes := listed }, others.after [.readiness] x⟩ := by
    rw [listing, hListed, hQuiet.yield]
  have hReconciled : Cache.Distinct { c with nodes := listed } := by
    rw [← hListed]
    exact hDistinct.reconcile s.live
  have hResolution : resolution s others ⟨c, x⟩ =
      (⟨{ c with nodes := listed.map s.addressed },
        others.after (.readiness :: listed.map fun n => .lookup n.name) x⟩,
        s.resolved listed) := by
    rw [resolution, hListing]
    exact hQuiet.resolve s hReconciled _ (List.nil_append listed).symm
  rw [run_eq, queried, hResolution, hListing, hQuiet.yield]
  simp only [Others.after, List.foldl_append]

theorem mem_names_of_reconcile {live : List String}
    (hListed : (c.reconcile live).1 = { c with nodes := listed }) {f : NodeRecord → NodeRecord}
    (hName : ∀ n, (f n).name = n.name) (name : String) :
    name ∈ Cache.names { c with nodes := listed.map f } ↔ name ∈ live := by
  have hKept : Cache.names { c with nodes := listed.map f } = (c.reconcile live).1.names := by
    rw [hListed]
    simp only [Cache.names, List.map_map, Function.comp_def, hName]
  rw [hKept]
  exact Cache.mem_reconcile c live name

/-- A cycle with nobody else at work. The live nodes are left, the old ones in their order and the
new ones behind them by name, and nothing but nodes changes. Without readiness nothing else happens.
Otherwise each node has the address that was found for it, or none. If there is no address at all,
nothing is queried; if a query fails, the first failure decides the outcome; either way no usage
changes and no event is handed over. If all queries succeed, each resolved node has in place of its
usages what was first reported for its address, and when the window is free, one event is handed
over for each node that got anything, in the order of the listing. -/
theorem undisturbed_cycle (s : Sources) {others : Others σ} (hQuiet : others.Quiet) (now : Nat)
    (limiter : RateLimiter) {c : Cache} (hDistinct : c.Distinct) (x : σ) :
    ∃ newcomers : List String, newcomers.Pairwise (· < ·) ∧
      (∀ name, name ∈ newcomers ↔ name ∈ s.live ∧ name ∉ c.names) ∧
      let listed := (c.nodes.filter fun n => s.live.contains n.name) ++ newcomers.map .fresh
      let addressed : Cache := { c with nodes := listed.map s.addressed }
      let looked := Point.readiness :: listed.map fun n => Point.lookup n.name
      let asked := looked ++ [Point.query]
      let r := run s others now limiter ⟨c, x⟩
      (∀ name, name ∈ r.world.cache.names ↔ name ∈ s.live) ∧
      (s.ready = false →
        r = ⟨⟨{ c with nodes := listed }, others.after [.readiness] x⟩, limiter, [], .ok ()⟩) ∧
      (s.ready = true → (∀ n ∈ listed, s.address? n.name = none) →
        r = ⟨⟨addressed, others.after looked x⟩, limiter, [], .ok ()⟩) ∧
      (s.ready = true → (∃ n ∈ listed, s.address? n.name ≠ none) →
        (∀ e, s.failure? = some e →
          r = ⟨⟨addressed, others.after asked x⟩, limiter, [], afterFailure e⟩) ∧
        ∀ u : Usages, s.cpu = .ok u.cpu → s.memory = .ok u.memory → s.network = .ok u.network →
          let updated := listed.filter (s.updates u)
          r = ⟨⟨{ c with nodes := listed.map (s.stored u) }, others.after asked x⟩,
            if updated ≠ [] ∧ limiter.isReady now = true then { limiter with last := some now }
            else limiter,
            if limiter.isReady now then (updated.map (s.stored u)).map event else [],
            .ok ()⟩) := by
  refine ⟨(ascending s.live).filter fun name => !c.names.contains name,
    (ascending_sorted s.live).filter _, ?_, ?_⟩
  · intro name
    simp [mem_ascending]
  · intro listed addressed looked asked r
    have hListed : (c.reconcile s.live).1 = { c with nodes := listed } := rfl
    have hRun := hQuiet.run s now limiter hDistinct x hListed
    have hAddressed : addressed.Distinct := by
      rw [Cache.Distinct, Cache.names, List.map_map]
      exact hDistinct.reconcile s.live
    have hIdle : s.ready = false →
        r = ⟨⟨{ c with nodes := listed }, others.after [.readiness] x⟩, limiter, [], .ok ()⟩ := by
      intro hReady
      rw [hReady] at hRun
      exact hRun
    have hUnresolved : s.ready = true → (∀ n ∈ listed, s.address? n.name = none) →
        r = ⟨⟨addressed, others.after looked x⟩, limiter, [], .ok ()⟩ := by
      intro hReady hNone
      rw [hReady, (resolved_isEmpty s listed).mpr hNone] at hRun
      exact hRun
    have hAsked : s.ready = true → (∃ n ∈ listed, s.address? n.name ≠ none) →
        r = finish s now limiter (s.resolved listed) ⟨addressed, others.after asked x⟩ := by
      rintro hReady ⟨n, hn, hSome⟩
      have hFull : ¬ (s.resolved listed).isEmpty = true :=
        fun hEmpty => hSome ((resolved_isEmpty s listed).mp hEmpty n hn)
      rw [hReady, if_neg hFull] at hRun
      exact hRun
    have hFailed : s.ready = true → (∃ n ∈ listed, s.address? n.name ≠ none) →
        ∀ e, s.failure? = some e → r = _ := fun hReady hSome e hFailure =>
      (hAsked hReady hSome).trans (finish_of_failure hFailure _ _)
    have hFilled : s.ready = true → (∃ n ∈ listed, s.address? n.name ≠ none) →
        ∀ u : Usages, s.cpu = .ok u.cpu → s.memory = .ok u.memory → s.network = .ok u.network →
          r = _ := fun hReady hSome u hCpu hMemory hNetwork =>
      (hAsked hReady hSome).trans
        (finish_of_usages hAddressed rfl (usages_eq_ok_iff.mpr ⟨hCpu, hMemory, hNetwork⟩) _)
    refine ⟨?_, hIdle, hUnresolved, fun hReady hSome =>
      ⟨hFailed hReady hSome, hFilled hReady hSome⟩⟩
    cases hReady : s.ready with
    | false =>
      rw [hIdle hReady]
      exact Cache.mem_reconcile c s.live
    | true =>
      by_cases hNone : ∀ n ∈ listed, s.address? n.name = none
      · rw [hUnresolved hReady hNone]
        exact mem_names_of_reconcile hListed fun _ => rfl
      · have hSome : ∃ n ∈ listed, s.address? n.name ≠ none := by simpa using hNone
        rcases failure_or_usages s with ⟨e, hFailure, _⟩ | ⟨u, _, hUsages⟩
        · rw [hFailed hReady hSome e hFailure]
          exact mem_names_of_reconcile hListed fun _ => rfl
        · obtain ⟨hCpu, hMemory, hNetwork⟩ := usages_eq_ok_iff.mp hUsages
          rw [hFilled hReady hSome u hCpu hMemory hNetwork]
          exact mem_names_of_reconcile hListed (stored_name s u)

def noted : Others (List Point) := fun point seen => ([], seen ++ [point])

/-- One node has left, another is new and has no exporter, and the CPU usage of the one that stays
is reported twice. -/
theorem undisturbed_cycle_departed :
    let c : Cache := ⟨[.fresh "node-a", .fresh "node-b"], ∅⟩
    let s : Sources :=
      { live := ["node-c", "node-b"]
        exporterIp := fun name => if name = "node-b" then some "10.0.0.2" else none
        exporterPort := 9100
        ready := true
        cpu := .ok [⟨"10.0.0.2:9100", ⟨4, []⟩⟩, ⟨"10.0.0.2:9100", ⟨8, []⟩⟩]
        memory := .ok []
        network := .ok [] }
    let r := run s noted 0 (.ofWindow 5000) ⟨c, []⟩
    let survivor : NodeRecord := ⟨"node-b", some "10.0.0.2:9100", some ⟨4, []⟩, none, none⟩
    noted.Quiet ∧ c.Distinct ∧ (∀ name, name ∈ r.world.cache.names ↔ name ∈ s.live) ∧
      r.world.cache.nodes.head? = some survivor ∧ r.events.head? = some (event survivor) ∧
      r.outcome = .ok () := by
  intro c s r survivor
  have hQuiet : noted.Quiet := fun _ _ => rfl
  have hDistinct : c.Distinct := by simp [c, Cache.Distinct, Cache.names, NodeRecord.fresh]
  obtain ⟨newcomers, _, _, hNames, _, _, hAsked⟩ :=
    undisturbed_cycle s hQuiet 0 (.ofWindow 5000) hDistinct []
  let u : Usages := ⟨[⟨"10.0.0.2:9100", ⟨4, []⟩⟩, ⟨"10.0.0.2:9100", ⟨8, []⟩⟩], [], []⟩
  have hRun := (hAsked rfl ⟨.fresh "node-b", by simp [c, s, NodeRecord.fresh], by decide⟩).2 u
    rfl rfl rfl
  have hKept : c.nodes.filter (fun n => s.live.contains n.name) = [.fresh "node-b"] := by
    simp [c, s, NodeRecord.fresh]
  have hUpdates : s.updates u (.fresh "node-b") = true := by decide
  have hAddress : s.address? "node-b" = some "10.0.0.2:9100" := by decide
  have hStored : s.stored u (.fresh "node-b") = survivor := by
    simp [Sources.stored, Sources.addressed, hAddress, NodeRecord.fresh, Usages.onto,
      Reported.find?, u, survivor]
  simp only [hKept, List.cons_append, List.map_cons, List.filter_cons_of_pos hUpdates,
    hStored] at hRun
  refine ⟨hQuiet, hDistinct, hNames, ?_⟩
  rw [show r = _ from hRun]
  exact ⟨rfl, rfl, rfl⟩

end Whole

end NodeCycle

end GatewayTelemetry
