import GatewayTelemetry.Proofs.Agent.Payload
import GatewayTelemetry.Proofs.Cluster.Exporter
import GatewayTelemetry.Proofs.Collection.Undisturbed
import GatewayTelemetry.Proofs.Json.Text
import GatewayTelemetry.Proofs.Prometheus.Join
import GatewayTelemetry.Snapshot

/-! # What a snapshot shows of the nodes

A snapshot is one node cycle on an empty cache with nobody else at work. So the listed objects and
the answers of the server decide what it shows: each listed node once in the order of names, with
the address of its exporter and with what is reported for that address.
-/

namespace GatewayTelemetry

namespace NodeCycle

variable {σ : Type} {others : Others σ} {s : Sources} {u : Usages} {x : σ}

/-- Nobody writes from this state on, which is not left. -/
def Others.Still (others : Others σ) (x : σ) : Prop := ∀ point, others point x = ([], x)

def nobody : Others σ := fun _ x => ([], x)

theorem nobody_quiet : (nobody : Others σ).Quiet := fun _ _ => rfl

theorem Others.Still.yield (h : others.Still x) (point : Point) (c : Cache) :
    World.yield others point ⟨c, x⟩ = ⟨c, x⟩ := by
  simp [World.yield, h point]

theorem Others.Still.resolve (h : others.Still x) (s : Sources) (nodes : List NodeRecord)
    (c : Cache) :
    resolve s others nodes ⟨c, x⟩ = resolve s nobody nodes ⟨c, x⟩ ∧
      (resolve s others nodes ⟨c, x⟩).1.others = x := by
  induction nodes generalizing c with
  | nil => exact ⟨rfl, rfl⟩
  | cons n rest ih =>
    obtain ⟨hRest, hState⟩ := ih (resolveNode s c n).1
    have hNobody : World.yield nobody (.lookup n.name) ⟨c, x⟩ = ⟨c, x⟩ := rfl
    simp only [NodeCycle.resolve, h.yield, hNobody, hRest]
    exact ⟨trivial, hRest ▸ hState⟩

theorem Others.Still.run (h : others.Still x) (s : Sources) (now : Nat) (limiter : RateLimiter)
    (c : Cache) : run s others now limiter ⟨c, x⟩ = run s nobody now limiter ⟨c, x⟩ := by
  obtain ⟨hResolve, hState⟩ := h.resolve s (c.reconcile s.live).1.nodes (c.reconcile s.live).1
  have hNobody : ∀ (point : Point) (w : World σ), w.yield nobody point = w := fun _ _ => rfl
  simp only [NodeCycle.run, h.yield, hNobody, hResolve]
  rw [hResolve] at hState
  generalize NodeCycle.resolve s nobody _ _ = r at hState ⊢
  obtain ⟨⟨c', x'⟩, resolved⟩ := r
  obtain rfl : x' = x := hState
  rw [h.yield]

def Sources.shown (s : Sources) (u : Usages) (name : String) : NodeRecord :=
  if s.ready then
    ⟨name, s.address? name, (s.address? name).bind (Reported.find? u.cpu),
      (s.address? name).bind (Reported.find? u.memory),
      (s.address? name).bind (Reported.find? u.network)⟩
  else .fresh name

theorem shown_name (s : Sources) (u : Usages) (name : String) : (s.shown u name).name = name := by
  unfold Sources.shown
  split <;> rfl

theorem stored_fresh (s : Sources) (u : Usages) (name : String) (h : s.ready = true) :
    s.stored u (.fresh name) = s.shown u name := by
  rw [Sources.shown, if_pos h]
  cases hAddress : s.address? name with
  | none => simp [Sources.stored, Sources.addressed, NodeRecord.fresh, hAddress]
  | some address =>
    simp [Sources.stored, Sources.addressed, NodeRecord.fresh, Usages.onto, hAddress]

theorem run_empty (hStill : others.Still x) (hUsages : s.ready = true → usages s = .ok u)
    (now : Nat) (limiter : RateLimiter) :
    (run s others now limiter ⟨.empty, x⟩).outcome = .ok () ∧
      (run s others now limiter ⟨.empty, x⟩).world.cache =
        ⟨(ascending s.live).map (s.shown u), ∅⟩ := by
  let listed := (ascending s.live).map NodeRecord.fresh
  have hListed : (Cache.empty.reconcile s.live).1 = { Cache.empty with nodes := listed } := by
    simp [Cache.reconcile, Cache.empty, Cache.names, listed]
  have hRun := nobody_quiet.run s now limiter Cache.distinct_empty x hListed
  rw [hStill.run, hRun]
  cases hReady : s.ready with
  | false =>
    have hShown : s.shown u = NodeRecord.fresh := funext fun name => by simp [Sources.shown, hReady]
    rw [hShown]
    exact ⟨rfl, rfl⟩
  | true =>
    have hShown : (ascending s.live).map (s.shown u) = listed.map (s.stored u) := by
      rw [List.map_map]
      exact List.map_congr_left fun name _ => (stored_fresh s u name hReady).symm
    rw [hShown]
    -- If no node has an address, the cycle ends before it asks for usages.
    by_cases hNone : ∀ n ∈ listed, s.address? n.name = none
    · have hStored : listed.map (s.stored u) = listed.map s.addressed := by
        refine List.map_congr_left fun n hn => ?_
        rw [Sources.stored, hNone n hn]
      rw [(resolved_isEmpty s listed).mpr hNone, hStored]
      exact ⟨rfl, rfl⟩
    · have hFull : ¬ (s.resolved listed).isEmpty = true :=
        fun hEmpty => hNone ((resolved_isEmpty s listed).mp hEmpty)
      have hAddressed : Cache.Distinct { Cache.empty with nodes := listed.map s.addressed } := by
        have hReconciled := Cache.distinct_empty.reconcile s.live
        rw [hListed] at hReconciled
        rw [Cache.Distinct, Cache.names, List.map_map]
        exact hReconciled
      rw [if_neg hFull, finish_of_usages hAddressed rfl (hUsages hReady)]
      exact ⟨rfl, rfl⟩

end NodeCycle

namespace Prometheus

structure Answers where
  cpuTotals : List InstantSample
  cpuUsages : List RangeSeries
  memoryTotals : List InstantSample
  memoryUsages : List RangeSeries
  received : List RangeSeries
  sent : List RangeSeries

structure Answers.Given (a : Answers) (s : Server) (e : Access) : Prop where
  cpuTotals : s.instant e .cpuTotal = .ok a.cpuTotals
  cpuUsages : s.range e .cpuUsage = .ok a.cpuUsages
  memoryTotals : s.instant e .memoryTotal = .ok a.memoryTotals
  memoryUsages : s.range e .memoryUsage = .ok a.memoryUsages
  received : s.range e .networkReceived = .ok a.received
  sent : s.range e .networkSent = .ok a.sent

def Answers.usages (a : Answers) : NodeCycle.Usages :=
  ⟨joinUsages a.cpuTotals a.cpuUsages, joinUsages a.memoryTotals a.memoryUsages,
    joinNetwork a.received a.sent⟩

theorem Answers.find?_cpu (a : Answers) :
    Reported.find? a.usages.cpu = usageFor a.cpuTotals a.cpuUsages :=
  funext fun address => find?_joinUsages address _ _

theorem Answers.find?_memory (a : Answers) :
    Reported.find? a.usages.memory = usageFor a.memoryTotals a.memoryUsages :=
  funext fun address => find?_joinUsages address _ _

theorem Answers.find?_network (a : Answers) :
    Reported.find? a.usages.network = fun address => networkFor address a.received a.sent :=
  funext fun address => find?_joinNetwork address _ _

end Prometheus

open Prometheus (Answers)

namespace Site

variable {s : Site} {c : Config} {a : Answers}

theorem address?_eq (s : Site) (c : Config) (name : String) :
    (s.nodeSources c).address? name =
      (s.exporterIp c name).map fun ip => ip ++ ":" ++ toString c.exporterPort.toNat := by
  have hText : ∀ ip, NodeCycle.addressText ip c.exporterPort.toNat =
      ip ++ ":" ++ toString c.exporterPort.toNat := by
    intro ip
    rw [NodeCycle.addressText, String.append_assoc]
    rfl
  exact congrArg (Option.map · (s.exporterIp c name)) (funext hText)

theorem usages_of_given (h : a.Given s.prometheus (access c)) :
    NodeCycle.usages (s.nodeSources c) = .ok a.usages := by
  rw [NodeCycle.usages_eq_ok_iff]
  refine ⟨?_, ?_, ?_⟩
  · show s.prometheus.cpu (access c) = _
    rw [Prometheus.Server.cpu, h.cpuTotals, h.cpuUsages]
    rfl
  · show s.prometheus.memory (access c) = _
    rw [Prometheus.Server.memory, h.memoryTotals, h.memoryUsages]
    rfl
  · show s.prometheus.network (access c) = _
    rw [Prometheus.Server.network, h.received, h.sent]
    rfl

end Site

/-- No two listed pods that export on one node have the same name. -/
def DistinctExporters (past : List Arrival) (marker : String) : Prop :=
  ∀ node p q, LastVersion (listed .pods past) p → LastVersion (listed .pods past) q →
    p.Exports marker node → q.Exports marker node → p.name = q.name → p = q

/-- The listed pod that exports on the node and has the least name of those that do. -/
structure LeastExporter (past : List Arrival) (marker node : String) (p : Pod) : Prop where
  listed : LastVersion (listed .pods past) p
  exports : p.Exports marker node
  least : ∀ q, LastVersion (GatewayTelemetry.listed .pods past) q → q.Exports marker node → q ≠ p →
    p.name < q.name

namespace Snapshot

/-- The record of a node as the listed pods and the answers of the server make it. -/
structure Shows (s : Site) (c : Config) (past : List Arrival) (a : Answers) (n : NodeRecord) :
    Prop where
  idle : s.prometheus.isReady (Site.access c) = false → n.address = none
  address : s.prometheus.isReady (Site.access c) = true →
    (∃ p ip, LeastExporter past c.exporterMarker n.name p ∧ p.ip = some ip ∧
        n.address = some (ip ++ ":" ++ toString c.exporterPort.toNat)) ∨
      (∀ p, LastVersion (listed .pods past) p → ¬ p.Exports c.exporterMarker n.name) ∧
        n.address = none
  cpu : n.cpu = n.address.bind (Prometheus.usageFor a.cpuTotals a.cpuUsages)
  memory : n.memory = n.address.bind (Prometheus.usageFor a.memoryTotals a.memoryUsages)
  network : n.network =
    n.address.bind fun address => Prometheus.networkFor address a.received a.sent

def shownReal (x : Float) : Json := if h : x.isFinite = true then .num (.real x h) else .null

theorem int64_range (n : Int64) :
    -9223372036854775808 ≤ n.toInt ∧ n.toInt < 18446744073709551616 :=
  ⟨n.le_toInt, by have := n.toInt_lt; omega⟩

def shownTotal (n : Int64) : Json := .num (.int n.toInt (int64_range n))

def shownSamples (samples : List Sample) : Json :=
  .arr (samples.map fun p => .arr [shownReal p.1, shownReal p.2])

def shownUsage : Option Usage → Json
  | none => .null
  | some u => .obj [("total", shownTotal u.total), ("usages", shownSamples u.samples)]

def shownNetwork : Option NetworkUsage → Json
  | none => .null
  | some u => .obj [("device", .str u.device), ("rx_bytes", shownSamples u.received),
      ("tx_bytes", shownSamples u.sent)]

def shownAddress : Option String → Json
  | none => .null
  | some address => .str address

theorem encode_node (n : NodeRecord) :
    n.encode = .obj [("cpu_metric", shownUsage n.cpu), ("instance", shownAddress n.address),
      ("memory_metric", shownUsage n.memory), ("name", .str n.name),
      ("network_metric", shownNetwork n.network)] := by
  have hReal : Json.ofFloat = shownReal := by
    funext x
    rw [Json.ofFloat, Number.ofFloat?, shownReal]
    split_ifs <;> rfl
  have hSamples : Sample.encodeList = shownSamples := by
    funext samples
    unfold Sample.encodeList shownSamples Sample.encode
    rw [hReal]
  have hUsage : ∀ u : Option Usage, Json.ofOption Usage.encode u = shownUsage u := by
    rintro (_ | u)
    · rfl
    · rw [Json.ofOption, Usage.encode, hSamples]
      rfl
  have hNetwork : ∀ u : Option NetworkUsage,
      Json.ofOption NetworkUsage.encode u = shownNetwork u := by
    rintro (_ | u)
    · rfl
    · rw [Json.ofOption, NetworkUsage.encode, hSamples]
      rfl
  have hAddress : Json.ofOption .str n.address = shownAddress n.address := by
    cases n.address <;> rfl
  rw [NodeRecord.encode, hUsage, hUsage, hNetwork, hAddress]

section Nodes

variable {s : Site} {c : Config} {past : List Arrival} {a : Answers}

theorem collect_of_ok {a : Agent} {target : Target} (h : (a.cycle target 0).2 = .ok ()) :
    collect a true target = .ok (a.cycle target 0).1 := by
  unfold collect
  generalize a.cycle target 0 = r at h ⊢
  obtain ⟨reached, outcome⟩ := r
  obtain rfl : outcome = .ok () := h
  rfl

theorem document_node (stamp : Float) (hSynced : s.cluster.isSynced = true)
    (hAnswers : s.prometheus.isReady (Site.access c) = true →
      a.Given s.prometheus (Site.access c)) :
    document s c stamp .node =
      .ok (Json.obj [("nodes", .arr (((ascending s.cluster.nodeNames).map
        ((s.nodeSources c).shown a.usages)).map NodeRecord.encode))]).pretty := by
  have hStill : NodeCycle.Others.Still Agent.runHook none := fun _ => rfl
  have hUsages : (s.nodeSources c).ready = true →
      NodeCycle.usages (s.nodeSources c) = .ok a.usages :=
    fun hReady => Site.usages_of_given (hAnswers hReady)
  obtain ⟨hOutcome, hCache⟩ := NodeCycle.run_empty hStill hUsages 0 (s.agent c stamp).nodeLimiter
  have hEnded : ((s.agent c stamp).cycle .node 0).2 = .ok () := hOutcome
  have hShown : ((s.agent c stamp).cycle .node 0).1.cache =
      ⟨(ascending s.cluster.nodeNames).map ((s.nodeSources c).shown a.usages), ∅⟩ := hCache
  have hTaken : take s c stamp .node = .ok ((s.agent c stamp).cycle .node 0).1.cache := by
    simp only [take, hSynced, CommandLine.Scope.includesNodes, collect_of_ok hEnded]
    rfl
  rw [document, hTaken, hShown]
  rfl

theorem exporterIp_spec (hPast : Admissible past) (hOver : Over .pods past)
    (hCluster : s.cluster = ((Feed.start .empty).after past).cluster)
    (hDistinct : DistinctExporters past c.exporterMarker)
    (node : String) :
    match s.exporterIp c node with
    | some ip => ∃ p, LeastExporter past c.exporterMarker node p ∧ p.ip = some ip
    | none => ∀ p, LastVersion (listed .pods past) p → ¬ p.Exports c.exporterMarker node := by
  have hPods : ∀ p, p ∈ s.cluster.pods.values ↔ LastVersion (listed .pods past) p :=
    hCluster ▸ pods_of_over .empty hPast hOver
  have hSpec := Cluster.exporterAmong_spec c.exporterMarker node s.cluster.pods.values
  rw [Site.exporterIp, Cluster.exporter?]
  cases hFound : Cluster.exporterAmong c.exporterMarker node s.cluster.pods.values with
  | none =>
    rw [hFound] at hSpec
    exact fun p hp => hSpec p ((hPods p).mpr hp)
  | some e =>
    rw [hFound] at hSpec
    obtain ⟨p, hp, hExports, _, hIp, hLeast⟩ := hSpec
    refine ⟨p, ⟨(hPods p).mp hp, hExports, ?_⟩, hIp⟩
    intro q hq hOther hNe
    have hLe : p.name ≤ q.name := hLeast q ((hPods q).mpr hq) hOther
    refine lt_of_le_of_ne hLe fun hSame => hNe ?_
    exact hDistinct node q p hq ((hPods p).mp hp) hOther hExports hSame.symm

theorem shows_shown (hPast : Admissible past) (hOver : Over .pods past)
    (hCluster : s.cluster = ((Feed.start .empty).after past).cluster)
    (hDistinct : DistinctExporters past c.exporterMarker)
    (name : String) : Shows s c past a ((s.nodeSources c).shown a.usages name) := by
  have hExporter := exporterIp_spec hPast hOver hCluster hDistinct name
  cases hReady : s.prometheus.isReady (Site.access c) with
  | false =>
    have hFresh : (s.nodeSources c).shown a.usages name = .fresh name := by
      simp [NodeCycle.Sources.shown, Site.nodeSources, hReady]
    rw [hFresh]
    exact ⟨fun _ => rfl, fun h => absurd (hReady.symm.trans h) nofun, rfl, rfl, rfl⟩
  | true =>
    have hShown : (s.nodeSources c).shown a.usages name =
        ⟨name, (s.nodeSources c).address? name,
          ((s.nodeSources c).address? name).bind (Reported.find? a.usages.cpu),
          ((s.nodeSources c).address? name).bind (Reported.find? a.usages.memory),
          ((s.nodeSources c).address? name).bind (Reported.find? a.usages.network)⟩ := if_pos hReady
    rw [hShown, a.find?_cpu, a.find?_memory, a.find?_network]
    refine ⟨fun hIdle => absurd (hReady.symm.trans hIdle) nofun, fun _ => ?_, rfl, rfl, rfl⟩
    rw [Site.address?_eq]
    cases hIp : s.exporterIp c name with
    | none =>
      rw [hIp] at hExporter
      exact .inr ⟨hExporter, rfl⟩
    | some ip =>
      rw [hIp] at hExporter
      obtain ⟨p, hLeast, hOwn⟩ := hExporter
      exact .inl ⟨p, ip, hLeast, hOwn, rfl⟩

/-- A snapshot of the nodes, once everything listed is in view and if no query fails. The document
that its text denotes shows each listed node once, in ascending order of the names. If the server is
ready, a node has the address of the listed pod that exports on it with the least name, and what is
reported for this address; all else is null, and without readiness everything is. -/
theorem nodes_shown (s : Site) (c : Config) (stamp : Float) (hPast : Admissible past)
    (hOver : ∀ w, Over w past) (hCluster : s.cluster = ((Feed.start .empty).after past).cluster)
    (hDistinct : DistinctExporters past c.exporterMarker)
    (hAnswers : s.prometheus.isReady (Site.access c) = true →
      a.Given s.prometheus (Site.access c)) :
    ∃ (text : String) (nodes : List NodeRecord),
      document s c stamp .node = .ok text ∧
      Json.Denotes text.toList (.obj [("nodes", .arr (nodes.map fun n =>
        .obj [("cpu_metric", shownUsage n.cpu), ("instance", shownAddress n.address),
          ("memory_metric", shownUsage n.memory), ("name", .str n.name),
          ("network_metric", shownNetwork n.network)]))]) ∧
      (nodes.map (·.name)).Pairwise (· < ·) ∧
      (∀ name, name ∈ nodes.map (·.name) ↔ ∃ d ∈ listed .nodes past, d.name = some name) ∧
      ∀ n ∈ nodes, Shows s c past a n := by
  have hSynced : s.cluster.isSynced = true := hCluster ▸ synced_of_over .empty hOver
  have hNames : ((ascending s.cluster.nodeNames).map ((s.nodeSources c).shown a.usages)).map
      (·.name) = ascending s.cluster.nodeNames := by
    simp only [List.map_map, Function.comp_def, NodeCycle.shown_name, List.map_id']
  refine ⟨_, (ascending s.cluster.nodeNames).map ((s.nodeSources c).shown a.usages),
    document_node stamp hSynced hAnswers, ?_, ?_, ?_, ?_⟩
  · rw [← funext encode_node]
    exact Json.denotes_pretty _
  · rw [hNames]
    exact ascending_sorted _
  · intro name
    rw [hNames, mem_ascending, hCluster]
    exact nodeNames_of_over .empty hPast (hOver .nodes) name
  · intro n hn
    obtain ⟨name, _, rfl⟩ := List.mem_map.mp hn
    exact shows_shown hPast (hOver .pods) hCluster hDistinct name

end Nodes

namespace Listing

def node (name : String) : Described := ⟨some name, none, none, none, none⟩

def pod (name node ip phase : String) : Described :=
  ⟨some name, some "monitoring", some node, some ip, some phase⟩

def arrivals : List Arrival :=
  [.notice .nodes .listingStarts, .notice .pods .listingStarts,
    .notice .nodes (.listed (node "worker-2")),
    .notice .pods (.listed (pod "node-exporter-b" "worker-1" "10.0.0.9" "Running")),
    .notice .nodes (.listed (node "worker-1")), .notice .nodes .listingEnds,
    .notice .pods (.listed (pod "node-exporter-a" "worker-1" "10.0.0.1" "Running")),
    .notice .pods (.listed (pod "node-exporter-c" "worker-2" "10.0.0.2" "Pending")),
    .notice .pods .listingEnds]

def config : Config := { Config.standard with prometheusUrl := "http://prometheus:9090" }

def site : Site :=
  ⟨.directory [], ((Feed.start .empty).after arrivals).cluster, Agent.Answering.server, none⟩

def taken {α : Type} (answer : Except SourceError (List α)) : List α := answer.toOption.getD []

theorem eq_taken {α : Type} {answer : Except SourceError (List α)} (h : answer.isOk = true) :
    answer = .ok (taken answer) := by
  cases answer with
  | ok items => rfl
  | error e => cases h

def answersOf (s : Prometheus.Server) (e : Prometheus.Access) : Answers where
  cpuTotals := taken (s.instant e .cpuTotal)
  cpuUsages := taken (s.range e .cpuUsage)
  memoryTotals := taken (s.instant e .memoryTotal)
  memoryUsages := taken (s.range e .memoryUsage)
  received := taken (s.range e .networkReceived)
  sent := taken (s.range e .networkSent)

def server : Prometheus.Server := Agent.Answering.server

theorem given_of_ok {s : Prometheus.Server} {e : Prometheus.Access}
    (hInstant : ∀ q ∈ [.cpuTotal, .memoryTotal], (s.instant e q).isOk = true)
    (hRange : ∀ q ∈ [.cpuUsage, .memoryUsage, .networkReceived, .networkSent],
      (s.range e q).isOk = true) : (answersOf s e).Given s e := by
  constructor <;> dsimp only [answersOf]
  · exact eq_taken (hInstant _ (by decide))
  · exact eq_taken (hRange _ (by decide))
  · exact eq_taken (hInstant _ (by decide))
  · exact eq_taken (hRange _ (by decide))
  · exact eq_taken (hRange _ (by decide))
  · exact eq_taken (hRange _ (by decide))

def access : Prometheus.Access := ⟨"http://prometheus:9090", 600, 10⟩

theorem access_config : Site.access config = access := by decide +kernel

theorem given : (answersOf server access).Given server access :=
  given_of_ok (by decide +kernel) (by decide +kernel)

theorem admissible : Admissible arrivals := by
  have hNode : ∀ name, '/' ∉ name.toList → (node name).Named .nodes :=
    fun name hSlash => ⟨name, rfl, hSlash, rfl⟩
  have hPod : ∀ name n ip phase, '/' ∉ name.toList → (pod name n ip phase).Named .pods :=
    fun name _ _ _ hSlash => ⟨name, rfl, hSlash, "monitoring", rfl, by decide⟩
  constructor
  · intro w
    cases w <;> rfl
  · intro w n hn
    simp only [arrivals, List.mem_cons, Arrival.notice.injEq, List.not_mem_nil, or_false] at hn
    rcases hn with ⟨rfl, rfl⟩ | ⟨rfl, rfl⟩ | ⟨rfl, rfl⟩ | ⟨rfl, rfl⟩ | ⟨rfl, rfl⟩ | ⟨rfl, rfl⟩ |
      ⟨rfl, rfl⟩ | ⟨rfl, rfl⟩ | ⟨rfl, rfl⟩
    · trivial
    · trivial
    · exact hNode _ (by decide)
    · exact hPod _ _ _ _ (by decide)
    · exact hNode _ (by decide)
    · trivial
    · exact hPod _ _ _ _ (by decide)
    · exact hPod _ _ _ _ (by decide)
    · trivial

theorem listings_over : ∀ w, Over w arrivals := by
  intro w
  cases w with
  | nodes => exact ⟨arrivals.take 5, arrivals.drop 6, rfl, by decide⟩
  | pods => exact ⟨arrivals.take 8, [], rfl, nofun⟩

theorem distinct : DistinctExporters arrivals config.exporterMarker := by
  have hMem : ∀ p, LastVersion (listed .pods arrivals) p →
      p ∈ (listed .pods arrivals).filterMap Pod.ofDescribed? := by
    rintro p ⟨u, d, v, hSplit, hPod, _⟩
    exact List.mem_filterMap.mpr ⟨d, by simp [hSplit], hPod⟩
  have hNames : ∀ p ∈ (listed .pods arrivals).filterMap Pod.ofDescribed?,
      ∀ q ∈ (listed .pods arrivals).filterMap Pod.ofDescribed?, p.name = q.name → p = q := by decide
  exact fun _ p q hp hq _ _ => hNames p (hMem p hp) q (hMem q hq)

end Listing

open Listing in
/-- Of two exporters on one node the one with the lesser name counts, and its usage is shown. -/
theorem nodes_shown_listed :
    ((take site config 0 .node).toOption.getD .empty).nodes.map
        (fun n => (n.name, n.address, n.cpu.isSome)) =
      [("worker-1", some "10.0.0.1:9100", true), ("worker-2", none, false)] ∧
    ∃ (text : String) (nodes : List NodeRecord),
      document site config 0 .node = .ok text ∧
      Json.Denotes text.toList (.obj [("nodes", .arr (nodes.map fun n =>
        .obj [("cpu_metric", shownUsage n.cpu), ("instance", shownAddress n.address),
          ("memory_metric", shownUsage n.memory), ("name", .str n.name),
          ("network_metric", shownNetwork n.network)]))]) ∧
      (nodes.map (·.name)).Pairwise (· < ·) ∧
      (∀ name, name ∈ nodes.map (·.name) ↔ ∃ d ∈ listed .nodes arrivals, d.name = some name) ∧
      ∀ n ∈ nodes, Shows site config arrivals (answersOf server access) n := by
  refine ⟨?_, nodes_shown site config 0 admissible listings_over rfl distinct fun _ => ?_⟩
  · simp only [take, Site.agent, Site.sources, Site.nodeSources, access_config]
    decide +kernel
  · rw [access_config]
    exact given

end Snapshot

end GatewayTelemetry
