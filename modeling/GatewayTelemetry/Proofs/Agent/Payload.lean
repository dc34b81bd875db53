import GatewayTelemetry.Proofs.Agent.Kept
import GatewayTelemetry.Proofs.Agent.Window
import GatewayTelemetry.Proofs.Cache.Demands
import GatewayTelemetry.Proofs.Prometheus.Answer
import GatewayTelemetry.Proofs.Text.Cut

/-! # Payloads read back

A payload is written from a cached record, and no record is checked on its way into the cache. So a
payload reads back as its record exactly when that would stand the checks: no total is negative, no
device is without a name, and every latency is finite.
-/

namespace GatewayTelemetry

open Cache (Operation)

namespace Demands

variable {d : Demands} {s : Agent.Sources} {op : Operation}

structure OnSources (d : Demands) (s : Agent.Sources) : Prop where
  live : "" ∉ s.node.live
  remote : s.multiCluster.remote ≠ .ok (some "")
  cpu : ∀ reports, s.node.cpu = .ok reports → ∀ r ∈ reports, d.cpu r.metric
  memory : ∀ reports, s.node.memory = .ok reports → ∀ r ∈ reports, d.memory r.metric
  network : ∀ reports, s.node.network = .ok reports → ∀ r ∈ reports, d.network r.metric
  latency : ∀ remote, s.multiCluster.remote = .ok (some remote) →
    ∀ x ∈ s.multiCluster.latency remote, d.latency x

theorem OnSources.node (h : d.OnSources s) (hOwn : NodeCycle.Own s.node op) :
    d.OnOperation op := by
  cases hOwn with
  | reconcile => exact ⟨mt mem_ascending.mp h.live, nofun, nofun, nofun, nofun, nofun⟩
  | address name address => exact .of_nodeWrite rfl nofun nofun nofun
  | @cpu reports hReports r hr name =>
    have hCpu : d.cpu r.metric := h.cpu reports hReports r hr
    exact .of_nodeWrite rfl (by rintro u ⟨⟩; exact hCpu) nofun nofun
  | @memory reports hReports r hr name =>
    have hMemory : d.memory r.metric := h.memory reports hReports r hr
    exact .of_nodeWrite rfl nofun (by rintro u ⟨⟩; exact hMemory) nofun
  | @network reports hReports r hr name =>
    have hNetwork : d.network r.metric := h.network reports hReports r hr
    exact .of_nodeWrite rfl nofun nofun (by rintro u ⟨⟩; exact hNetwork)

theorem OnSources.multiCluster (h : d.OnSources s)
    (hOwn : MultiClusterCycle.Own s.multiCluster op) : d.OnOperation op := by
  cases hOwn with
  | @record remote hRemote stamp received sent =>
    refine ⟨List.not_mem_nil, nofun, nofun, nofun, ?_, ?_⟩
    · rintro w ⟨⟩ rfl
      exact h.remote hRemote
    · rintro w ⟨⟩ x hx
      exact h.latency remote hRemote x hx

end Demands

namespace Agent

/-- Names are not empty, and usages are what some server answers. Nothing is asked of the counters,
the gateways and their latencies. -/
structure Sources.Answered (s : Sources) : Prop where
  live : "" ∉ s.node.live
  remote : s.multiCluster.remote ≠ .ok (some "")
  cpu : ∃ (server : Prometheus.Server) (access : Prometheus.Access),
    s.node.cpu = server.cpu access
  memory : ∃ (server : Prometheus.Server) (access : Prometheus.Access),
    s.node.memory = server.memory access
  network : ∃ (server : Prometheus.Server) (access : Prometheus.Access),
    s.node.network = server.network access

theorem Sources.Answered.finite {s : Sources} (h : s.Answered) : Demands.finite.OnSources s where
  live := h.live
  remote := h.remote
  cpu reports hReports := by
    obtain ⟨server, access, hCpu⟩ := h.cpu
    exact Prometheus.Server.finite_of_cpu (hCpu.symm.trans hReports)
  memory reports hReports := by
    obtain ⟨server, access, hMemory⟩ := h.memory
    exact Prometheus.Server.finite_of_memory (hMemory.symm.trans hReports)
  network reports hReports := by
    obtain ⟨server, access, hNetwork⟩ := h.network
    exact Prometheus.Server.finite_of_network (hNetwork.symm.trans hReports)
  latency _ _ _ _ := trivial

structure Meets (d : Demands) (a : Agent) : Prop where
  cache : d.OnCache a.cache
  waiting : ∀ h ∈ a.waiting, ∀ op ∈ h.operations, d.OnOperation op

namespace Meets

variable {d : Demands}

theorem start (o : Options) (sources : Sources) : Meets d (ofOptions o sources) :=
  ⟨Demands.onCache_empty, nofun⟩

theorem iff_kept {a : Agent} : Meets d a ↔ Kept d.OnCache d.OnOperation a :=
  ⟨fun h => ⟨h.cache, h.waiting⟩, fun h => ⟨h.cache, h.waiting⟩⟩

theorem run {a : Agent} {steps : List Step} (h : Meets d a)
    (hSources : ∀ c ∈ a.cycles steps, d.OnSources c.before.sources)
    (hOthers : ∀ s ∈ steps, ∀ op ∈ s.operations, d.OnOperation op) :
    ∀ c ∈ a.cycles steps, Meets d c.before ∧ Meets d c.after := by
  have hApply : ∀ (c : Cache) (op : Operation), d.OnOperation op → d.OnCache c →
      d.OnCache (c.apply op).1 := fun _ _ hOp hCache => hCache.apply hOp
  have hOwn : ∀ c ∈ a.cycles steps, ∀ op, c.before.sources.Own op → d.OnOperation op :=
    fun c hc _ hOp => hOp.elim (hSources c hc).node (hSources c hc).multiCluster
  simp only [iff_kept] at h ⊢
  exact (h.run hApply hOwn hOthers).1

end Meets

namespace Cycle

theorem events_node {c : Cycle} (hDistinct : c.before.cache.Distinct) (h : c.target = .node) :
    ∀ e ∈ c.events, ∃ n ∈ c.after.cache.nodes, e = NodeCycle.event n := by
  intro e he
  have hAll := handsAll hDistinct (List.ne_nil_of_mem he)
  rw [HandsAll, h] at hAll
  obtain ⟨_, _, hEvents⟩ := hAll
  have hListed : some e ∈ c.events.map some := List.mem_map_of_mem he
  rw [hEvents] at hListed
  obtain ⟨name, _, hFound⟩ := List.mem_map.mp hListed
  obtain ⟨n, hNode, rfl⟩ := Option.map_eq_some_iff.mp hFound
  exact ⟨n, List.mem_of_find?_eq_some hNode, rfl⟩

theorem events_multiCluster {c : Cycle} (hDistinct : c.before.cache.Distinct)
    (h : c.target = .multiCluster) :
    ∀ e ∈ c.events, ∃ added, e = MultiClusterCycle.event added c.after.cache := by
  intro e he
  have hAll := handsAll hDistinct (List.ne_nil_of_mem he)
  rw [HandsAll, h] at hAll
  obtain ⟨kind, hEvents⟩ := hAll
  obtain rfl := List.mem_singleton.mp (hEvents ▸ he)
  cases kind with
  | added => exact ⟨true, rfl⟩
  | modified => exact ⟨false, rfl⟩

/-- The payload of the event reads as the cached record from which it was made. -/
def ReadsBack (c : Cycle) (e : Event) : Prop :=
  match c.target with
  | .node =>
    ∃ n ∈ c.after.cache.nodes, e = NodeCycle.event n ∧ NodeRecord.ofFields e.payload = .ok n
  | .multiCluster =>
    (∃ added, e = MultiClusterCycle.event added c.after.cache) ∧
      EndpointMap.ofFields e.payload = .ok c.after.cache.endpoints

/-- What reading the payload of the event comes to: the cached record, unless that fails its own
checks or has a latency that cannot be written as a number. -/
def ReadsAs (c : Cycle) (e : Event) : Prop :=
  match c.target with
  | .node =>
    ∃ n ∈ c.after.cache.nodes, e = NodeCycle.event n ∧
      NodeRecord.ofFields e.payload = n.validate.map (fun _ => n) ∧
      (n.validate = .ok () ↔ n.Sound)
  | .multiCluster =>
    (∃ added, e = MultiClusterCycle.event added c.after.cache) ∧
      EndpointMap.ofFields e.payload =
        if EndpointMap.measured c.after.cache.endpoints then .ok c.after.cache.endpoints
        else .error (.shape Decoder.notNumber)

theorem readsAs {c : Cycle} (hBefore : Meets .finite c.before) (hAfter : Meets .finite c.after) :
    ∀ e ∈ c.events, c.ReadsAs e := by
  intro e he
  cases hTarget : c.target with
  | node =>
    obtain ⟨n, hNode, rfl⟩ := events_node hBefore.cache.distinct hTarget e he
    have hMeets := hAfter.cache.nodes n hNode
    rw [ReadsAs, hTarget]
    exact ⟨n, hNode, rfl, NodeRecord.ofFields_encode hMeets.finite,
      NodeRecord.validate_iff hMeets.name_ne⟩
  | multiCluster =>
    obtain ⟨added, rfl⟩ := events_multiCluster hBefore.cache.distinct hTarget e he
    rw [ReadsAs, hTarget]
    exact ⟨⟨added, rfl⟩, EndpointMap.ofFields_encode hAfter.cache.dated⟩

theorem ReadsAs.readsBack {c : Cycle} {e : Event} (h : c.ReadsAs e)
    (hAfter : Meets .proper c.after) : c.ReadsBack e := by
  cases hTarget : c.target with
  | node =>
    rw [ReadsAs, hTarget] at h
    obtain ⟨n, hNode, hEvent, hRead, hValid⟩ := h
    rw [hValid.mpr (hAfter.cache.nodes n hNode).sound] at hRead
    rw [ReadsBack, hTarget]
    exact ⟨n, hNode, hEvent, hRead⟩
  | multiCluster =>
    rw [ReadsAs, hTarget] at h
    obtain ⟨hEvent, hRead⟩ := h
    rw [if_pos hAfter.cache.measured] at hRead
    rw [ReadsBack, hTarget]
    exact ⟨hEvent, hRead⟩

end Cycle

/-- Whatever servers answer, the payload of every event reads as the record from which it was made,
exactly when that stands its own checks and has finite latencies; so all payloads of a run read back
when all that is answered and written has totals of at least zero, devices with names, and finite
latencies. -/
theorem payloads_read_back (o : Options) (sources : Sources) (steps : List Step)
    (hAnswered : ∀ c ∈ (ofOptions o sources).cycles steps, c.before.sources.Answered)
    (hOthers : ∀ s ∈ steps, ∀ op ∈ s.operations, Demands.finite.OnOperation op) :
    (∀ c ∈ (ofOptions o sources).cycles steps, ∀ e ∈ c.events, c.ReadsAs e) ∧
      ((∀ c ∈ (ofOptions o sources).cycles steps, Demands.proper.OnSources c.before.sources) →
        (∀ s ∈ steps, ∀ op ∈ s.operations, Demands.proper.OnOperation op) →
        ∀ c ∈ (ofOptions o sources).cycles steps, ∀ e ∈ c.events, c.ReadsBack e) := by
  have hFinite := (Meets.start o sources).run (fun c hc => (hAnswered c hc).finite) hOthers
  have hReads : ∀ c ∈ (ofOptions o sources).cycles steps, ∀ e ∈ c.events, c.ReadsAs e :=
    fun c hc => Cycle.readsAs (hFinite c hc).1 (hFinite c hc).2
  refine ⟨hReads, ?_⟩
  intro hSources hOperations c hc e he
  have hProper := (Meets.start o sources).run hSources hOperations c hc
  exact (hReads c hc e he).readsBack hProper.2

end Agent

theorem Duration.parse?_ofList {cs : List Char} (hFilled : cs ≠ [])
    (h : ∀ c ∈ cs, Text.isBlank c = false) :
    parse? (String.ofList cs) = (readTerms cs).map millis := by
  rw [parse?, terms?, String.toList_ofList, Text.trim_of_not_blank h]
  cases cs with
  | nil => exact absurd rfl hFilled
  | cons c rest => rfl

namespace Agent

namespace Answering

def body (kind inner : String) : String :=
  "\x7b\"status\":\"success\",\"data\":\x7b\"resultType\":\"" ++ kind ++ "\",\"result\":[" ++
    inner ++ "]\x7d\x7d"

def server : Prometheus.Server where
  readiness := .received 200 ""
  reply
    | .cpuTotal | .memoryTotal => .received 200 (body "vector" "")
    | .cpuUsage => .received 200 (body "matrix"
        "\x7b\"metric\":\x7b\"instance\":\"10.0.0.1:9100\"\x7d,\"values\":[[1,\"0.5\"]]\x7d")
    | _ => .received 200 (body "matrix" "")

def access : Prometheus.Access := ⟨"http://prometheus:9090", 60, 15⟩

def tunnel (average : String) : Json :=
  .obj [("endpoint", .obj [("cluster_id", .str "cluster-b")]),
    ("latencyRTT", .obj [("average", .str average)]), ("status", .str "connected")]

def gateway (average : String) : Json :=
  .obj [("status", .obj [("connections", .arr [tunnel average]), ("haStatus", .str "active")])]

def site (average : String) : Sources where
  node :=
    { live := ["worker"]
      exporterIp := fun _ => some "10.0.0.1"
      exporterPort := 9100
      ready := server.isReady access
      cpu := server.cpu access
      memory := server.memory access
      network := server.network access }
  multiCluster :=
    { devicePresent := true
      countersPresent := true
      remote := .ok (some "cluster-b")
      gateway := Gateway.state (some [gateway average])
      received := .ok 1000
      sent := .ok 2000
      latency := Gateway.latency? [gateway average] }

theorem answered (average : String) : (site average).Answered where
  live := by simp [site]
  remote := by simp [site]
  cpu := ⟨server, access, rfl⟩
  memory := ⟨server, access, rfl⟩
  network := ⟨server, access, rfl⟩

theorem all_of_answer {α : Type} {p : α → Prop} [DecidablePred p]
    {answer : Except SourceError (List (Reported α))}
    (h : ((answer.toOption.getD []).all fun r => p r.metric) = true) :
    ∀ reports, answer = .ok reports → ∀ r ∈ reports, p r.metric := by
  rintro reports rfl r hr
  exact of_decide_eq_true (List.all_eq_true.mp h r hr)

theorem proper : Demands.proper.OnSources (site "12.5ms") where
  live := (answered "12.5ms").live
  remote := (answered "12.5ms").remote
  cpu := all_of_answer (p := fun u : Usage => 0 ≤ u.total) (by decide +kernel)
  memory := all_of_answer (p := fun u : Usage => 0 ≤ u.total) (by decide +kernel)
  network := all_of_answer (p := fun u : NetworkUsage => u.device ≠ "") (by decide +kernel)
  latency := by
    rintro _ ⟨⟩
    have hFinite : ∀ x ∈ Gateway.latency? [gateway "12.5ms"] "cluster-b", x.isFinite = true := by
      decide +kernel
    exact hFinite

def roomy : Options := ⟨1024, 5000, 2000, fun _ => 0⟩

def rounds : List Step := [.collect .node, .collect .multiCluster]

def endless : String := String.ofList (List.replicate 400 '9' ++ ['s'])

theorem latency?_gateway (average remote : String) :
    Gateway.latency? [gateway average] remote =
      if "cluster-b" = remote then Duration.parse? average else none := by
  have hTunnels : [gateway average].flatMap Gateway.activeConnections = [tunnel average] := rfl
  have hRemote : Gateway.remote? (tunnel average) = some "cluster-b" := rfl
  have hAverage : Gateway.averageText? (tunnel average) = some average := rfl
  rw [Gateway.latency?, hTunnels, List.find?_singleton, hRemote]
  split <;> simp_all

theorem parse?_endless :
    Duration.parse? endless =
      (Duration.readTerms (List.replicate 400 '9' ++ ['s'])).map Duration.millis := by
  refine Duration.parse?_ofList (List.append_ne_nil_of_right_ne_nil _ (List.cons_ne_nil _ _)) ?_
  intro c hc
  rcases List.mem_append.mp hc with hDigit | hUnit
  · rw [List.eq_of_mem_replicate hDigit]
    decide
  · rw [List.mem_singleton.mp hUnit]
    decide

end Answering

open Answering in
theorem payloads_read_back_answering :
    ((ofOptions roomy (site "12.5ms")).cycles rounds).map (fun c => c.events.length) = [1, 1] ∧
      ∀ c ∈ (ofOptions roomy (site "12.5ms")).cycles rounds, ∀ e ∈ c.events, c.ReadsBack e := by
  have hSite : ∀ c ∈ (ofOptions roomy (site "12.5ms")).cycles rounds,
      c.before.sources = site "12.5ms" :=
    cycles_sources (by simp [rounds])
  have hOthers : ∀ s ∈ rounds, s.operations = [] := by simp [rounds, Step.operations]
  refine ⟨by decide +kernel, (payloads_read_back _ _ _ ?_ ?_).2 ?_ ?_⟩
  · intro c hc
    rw [hSite c hc]
    exact answered "12.5ms"
  · intro s hs op hop
    rw [hOthers s hs] at hop
    cases hop
  · intro c hc
    rw [hSite c hc]
    exact proper
  · intro s hs op hop
    rw [hOthers s hs] at hop
    cases hop

open Answering in
/-- A latency that is not finite is written as no number, and its payload is not read. -/
theorem latency_unreadable :
    (site endless).Answered ∧
      ¬ ∀ c ∈ (ofOptions roomy (site endless)).cycles [.collect .multiCluster], ∀ e ∈ c.events,
        c.ReadsBack e := by
  refine ⟨answered endless, ?_⟩
  intro hAlways
  obtain ⟨c, hRun⟩ : ∃ c, (ofOptions roomy (site endless)).cycles [.collect .multiCluster] = [c] :=
    ⟨_, rfl⟩
  have hShown : ((ofOptions roomy (site endless)).cycles [.collect .multiCluster]).map (fun c =>
      (c.target, c.events.map fun e => (EndpointMap.ofFields e.payload).toBool)) =
        [(.multiCluster, [false])] := by
    unfold site
    rw [funext (latency?_gateway endless), parse?_endless]
    decide +kernel
  rw [hRun] at hShown hAlways
  simp only [List.map_cons, List.map_nil, List.cons.injEq, Prod.mk.injEq, and_true,
    List.map_eq_singleton_iff] at hShown
  obtain ⟨hTarget, e, hEvents, hUnread⟩ := hShown
  have hRead := hAlways c (List.mem_singleton_self c) e (hEvents ▸ List.mem_singleton_self e)
  rw [Cycle.ReadsBack, hTarget] at hRead
  rw [hRead.2] at hUnread
  cases hUnread

end Agent

end GatewayTelemetry
