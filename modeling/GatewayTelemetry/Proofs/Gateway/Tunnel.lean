import GatewayTelemetry.Gateway.State
import Mathlib.Data.List.Forall2
import Mathlib.Logic.Relation

/-! # Tunnels

A tunnel is a connected connection of an active gateway. The state of the deployment asks whether
there is a tunnel, the latency of a remote cluster for the first one that leads there. So the order
of what is listed has no part in the state, and what is no tunnel to the cluster none in its latency.
-/

namespace GatewayTelemetry

namespace Gateway

/-- A connected connection of an active gateway among the listed ones. -/
inductive Tunnel (gateways : List Json) : Json → Prop
  | reported {gateway status connection : Json} {connections : List Json}
      (hGateway : gateway ∈ gateways) (hStatus : gateway.get? "status" = some status)
      (hActive : textAt? status "haStatus" = some "active")
      (hConnections : status.get? "connections" = some (.arr connections))
      (hConnection : connection ∈ connections)
      (hConnected : textAt? connection "status" = some "connected") : Tunnel gateways connection

def Active (gateway : Json) : Prop :=
  ∃ status, gateway.get? "status" = some status ∧ textAt? status "haStatus" = some "active"

/-- The connections of an active gateway, connected or not. -/
inductive Reports (gateway : Json) : List Json → Prop
  | active {status : Json} {connections : List Json}
      (hStatus : gateway.get? "status" = some status)
      (hActive : textAt? status "haStatus" = some "active")
      (hConnections : status.get? "connections" = some (.arr connections)) :
      Reports gateway connections

def Connected (connection : Json) : Prop := textAt? connection "status" = some "connected"

instance : DecidablePred Connected := fun c =>
  inferInstanceAs (Decidable (textAt? c "status" = some "connected"))

theorem Reports.activeConnections {gateway : Json} {connections : List Json}
    (h : Reports gateway connections) :
    activeConnections gateway = connections.filter fun c => Connected c := by
  obtain ⟨hStatus, hActive, hConnections⟩ := h
  rw [Gateway.activeConnections, hStatus]
  simp only [hActive, if_true, hConnections]
  rfl

theorem reports_or_none (gateway : Json) :
    (∃ connections, Reports gateway connections) ∨ activeConnections gateway = [] := by
  rw [activeConnections]
  split
  · exact .inr rfl
  · rename_i status hStatus
    split
    · rename_i hActive
      cases hItems : status.get? "connections" with
      | none => exact .inr rfl
      | some j =>
        cases j with
        | arr connections => exact .inl ⟨connections, hStatus, hActive, hItems⟩
        | null | bool | num | str | obj => exact .inr rfl
    · exact .inr rfl

theorem activeConnections_of_passive {gateway : Json} (h : ¬ Active gateway) :
    activeConnections gateway = [] := by
  rcases reports_or_none gateway with ⟨_, hStatus, hActive, _⟩ | hNone
  · exact absurd ⟨_, hStatus, hActive⟩ h
  · exact hNone

theorem tunnel_iff {gateways : List Json} {t : Json} :
    Tunnel gateways t ↔ ∃ g ∈ gateways, t ∈ activeConnections g := by
  constructor
  · rintro ⟨hGateway, hStatus, hActive, hConnections, hConnection, hConnected⟩
    refine ⟨_, hGateway, ?_⟩
    rw [(Reports.active hStatus hActive hConnections).activeConnections]
    exact List.mem_filter.mpr ⟨hConnection, decide_eq_true hConnected⟩
  · rintro ⟨g, hGateway, hMember⟩
    rcases reports_or_none g with ⟨connections, hReports⟩ | hNone
    · rw [hReports.activeConnections] at hMember
      obtain ⟨hConnection, hConnected⟩ := List.mem_filter.mp hMember
      obtain ⟨hStatus, hActive, hConnections⟩ := hReports
      exact .reported hGateway hStatus hActive hConnections hConnection (of_decide_eq_true hConnected)
    · rw [hNone] at hMember
      cases hMember

theorem classify_eq_connected_iff {gateways : List Json} :
    classify gateways = .connected ↔ ∃ t, Tunnel gateways t := by
  have hAny : (gateways.any fun g => !(activeConnections g).isEmpty) = true ↔
      ∃ t, Tunnel gateways t := by
    simp only [List.any_eq_true, Bool.not_eq_true', List.isEmpty_eq_false_iff_exists_mem, tunnel_iff]
    exact ⟨fun ⟨g, hGateway, t, ht⟩ => ⟨t, g, hGateway, ht⟩,
      fun ⟨t, g, hGateway, ht⟩ => ⟨g, hGateway, t, ht⟩⟩
  rw [← hAny, classify]
  cases gateways with
  | nil => simp
  | cons g rest => cases (g :: rest).any fun g => !(activeConnections g).isEmpty <;> simp

theorem classify_eq_notDeployed_iff {gateways : List Json} :
    classify gateways = .notDeployed ↔ gateways = [] := by
  rw [classify]
  cases gateways with
  | nil => simp
  | cons g rest => cases (g :: rest).any fun g => !(activeConnections g).isEmpty <;> simp

theorem classify_eq_disconnected_iff {gateways : List Json} :
    classify gateways = .disconnected ↔ gateways ≠ [] ∧ ¬ ∃ t, Tunnel gateways t := by
  rw [← classify_eq_connected_iff, Ne, ← classify_eq_notDeployed_iff, classify]
  split
  · simp
  · split <;> simp

/-- Two objects alike but for the value of one member, and those values related. -/
inductive Within (key : String) (r : Json → Json → Prop) : Json → Json → Prop
  | member {front back : List (String × Json)} {v v' : Json} (h : r v v') :
      Within key r (.obj (front ++ (key, v) :: back)) (.obj (front ++ (key, v') :: back))

inductive Items (r : List Json → List Json → Prop) : Json → Json → Prop
  | arr {xs ys : List Json} (h : r xs ys) : Items r (.arr xs) (.arr ys)

def Rewired (r : List Json → List Json → Prop) : Json → Json → Prop :=
  Within "status" (Within "connections" (Items r))

section Within

variable {key : String} {r : Json → Json → Prop} {j j' : Json}

theorem Within.get?_of_ne (h : Within key r j j') {other : String} (hKey : key ≠ other) :
    j'.get? other = j.get? other := by
  obtain ⟨_⟩ := h
  simp only [Json.get?, List.find?_append, List.find?_cons, beq_eq_false_iff_ne.mpr hKey]

theorem Within.get?_self (h : Within key r j j') :
    j'.get? key = j.get? key ∨
      ∃ v v', r v v' ∧ j.get? key = some v ∧ j'.get? key = some v' := by
  obtain @⟨front, back, v, v', hRelated⟩ := h
  simp only [Json.get?, List.find?_append, List.find?_cons, beq_self_eq_true]
  cases front.find? fun f => f.1 == key with
  | some f => exact .inl rfl
  | none => exact .inr ⟨v, v', hRelated, rfl, rfl⟩

end Within

theorem activeConnections_rewired {r : List Json → List Json → Prop} {g g' : Json}
    (h : Rewired r g g') :
    activeConnections g' = activeConnections g ∨
      ∃ xs ys, r xs ys ∧ activeConnections g = xs.filter (fun c => Connected c) ∧
        activeConnections g' = ys.filter fun c => Connected c := by
  rcases Within.get?_self h with hSame | ⟨status, status', hStatus, hGet, hGet'⟩
  · exact .inl (by rw [activeConnections, hSame, activeConnections])
  · have hRole : textAt? status' "haStatus" = textAt? status "haStatus" := by
      rw [textAt?, hStatus.get?_of_ne (by decide), textAt?]
    by_cases hActive : textAt? status "haStatus" = some "active"
    · rcases hStatus.get?_self with hSame | ⟨_, _, ⟨hItems⟩, hOld, hNew⟩
      · refine .inl ?_
        simp only [activeConnections, hGet, hGet', hRole, hSame]
      · exact .inr ⟨_, _, hItems, (Reports.active hGet hActive hOld).activeConnections,
          (Reports.active hGet' (hRole.trans hActive) hNew).activeConnections⟩
    · refine .inl ?_
      simp only [activeConnections, hGet, hGet', hRole, hActive, if_false]

/-- The same gateways in any order, each with its connections in any order. -/
def Reordered (gateways gateways' : List Json) : Prop :=
  ∃ middle, gateways.Perm middle ∧
    List.Forall₂ (Relation.ReflGen (Rewired List.Perm)) middle gateways'

theorem isEmpty_activeConnections_reordered {g g' : Json}
    (h : Relation.ReflGen (Rewired List.Perm) g g') :
    (activeConnections g').isEmpty = (activeConnections g).isEmpty := by
  cases h with
  | refl => rfl
  | single hRewired =>
    rcases activeConnections_rewired hRewired with hSame | ⟨xs, ys, hPerm, hOld, hNew⟩
    · rw [hSame]
    · rw [hOld, hNew, (hPerm.filter _).isEmpty_eq]

theorem classify_reordered {gateways gateways' : List Json} (h : Reordered gateways gateways') :
    classify gateways' = classify gateways := by
  obtain ⟨middle, hPerm, hEach⟩ := h
  have hEmpty : gateways'.isEmpty = middle.isEmpty := by
    rw [Bool.eq_iff_iff, List.isEmpty_iff_length_eq_zero, List.isEmpty_iff_length_eq_zero,
      hEach.length_eq]
  have hAny : (gateways'.any fun g => !(activeConnections g).isEmpty) =
      middle.any fun g => !(activeConnections g).isEmpty := by
    clear hPerm hEmpty
    induction hEach with
    | nil => rfl
    | cons hFirst _ ih =>
      rw [List.any_cons, List.any_cons, isEmpty_activeConnections_reordered hFirst, ih]
  rw [classify, classify, hEmpty, hAny, hPerm.isEmpty_eq, hPerm.any_eq]

def LeadsTo (remote : String) (connection : Json) : Prop :=
  ∃ endpoint, connection.get? "endpoint" = some endpoint ∧
    textAt? endpoint "cluster_id" = some remote

def Averages (connection : Json) (text : String) : Prop :=
  ∃ latency, connection.get? "latencyRTT" = some latency ∧ textAt? latency "average" = some text

/-- The first tunnel to a remote cluster: none leads there that an earlier gateway reports, and none
in front of it in its own gateway. -/
inductive FirstTunnel (remote : String) : List Json → Json → Prop
  | reported {before after front back : List Json} {gateway t : Json}
      (hReports : Reports gateway (front ++ t :: back)) (hConnected : Connected t)
      (hRemote : LeadsTo remote t) (hFront : ∀ c ∈ front, Connected c → ¬ LeadsTo remote c)
      (hBefore : ∀ c, Tunnel before c → ¬ LeadsTo remote c) :
      FirstTunnel remote (before ++ gateway :: after) t

theorem leadsTo_iff {remote : String} {c : Json} : LeadsTo remote c ↔ remote? c = some remote := by
  rw [remote?, Option.bind_eq_some_iff, LeadsTo]

theorem averages_iff {c : Json} {text : String} : Averages c text ↔ averageText? c = some text := by
  rw [averageText?, Option.bind_eq_some_iff, Averages]

theorem find?_activeConnections_iff {remote : String} {gateway t : Json} :
    ((activeConnections gateway).find? fun c => remote? c = some remote) = some t ↔
      ∃ front back, Reports gateway (front ++ t :: back) ∧ Connected t ∧ LeadsTo remote t ∧
        ∀ c ∈ front, Connected c → ¬ LeadsTo remote c := by
  have hFind : ∀ connections : List Json,
      ((connections.filter fun c => Connected c).find? fun c => remote? c = some remote) = some t ↔
        (Connected t ∧ LeadsTo remote t) ∧
          ∃ front back, connections = front ++ t :: back ∧
            ∀ c ∈ front, Connected c → ¬ LeadsTo remote c := by
    intro connections
    rw [List.find?_filter, List.find?_eq_some_iff_append]
    simp [leadsTo_iff, imp_iff_not_or]
  constructor
  · intro h
    rcases reports_or_none gateway with ⟨connections, hReports⟩ | hNone
    · rw [hReports.activeConnections, hFind] at h
      obtain ⟨⟨hConnected, hRemote⟩, front, back, rfl, hFront⟩ := h
      exact ⟨front, back, hReports, hConnected, hRemote, hFront⟩
    · rw [hNone] at h
      cases h
  · rintro ⟨front, back, hReports, hConnected, hRemote, hFront⟩
    rw [hReports.activeConnections, hFind]
    exact ⟨⟨hConnected, hRemote⟩, front, back, rfl, hFront⟩

theorem find?_tunnels_iff {remote : String} {gateways : List Json} {t : Json} :
    ((gateways.flatMap activeConnections).find? fun c => remote? c = some remote) = some t ↔
      FirstTunnel remote gateways t := by
  have hNone : ∀ before : List Json,
      (∀ g ∈ before, ((activeConnections g).find? fun c => remote? c = some remote) = none) ↔
        ∀ c, Tunnel before c → ¬ LeadsTo remote c := by
    intro before
    simp only [List.find?_eq_none, decide_eq_true_eq, tunnel_iff, leadsTo_iff]
    exact ⟨fun h c ⟨g, hGateway, hMember⟩ => h g hGateway c hMember,
      fun h g hGateway c hMember => h c ⟨g, hGateway, hMember⟩⟩
  rw [List.find?_flatMap, List.findSome?_eq_some_iff]
  constructor
  · rintro ⟨before, gateway, after, rfl, hFound, hBefore⟩
    obtain ⟨front, back, hReports, hConnected, hRemote, hFront⟩ :=
      find?_activeConnections_iff.mp hFound
    exact .reported hReports hConnected hRemote hFront ((hNone before).mp hBefore)
  · rintro @⟨before, after, front, back, gateway, _, hReports, hConnected, hRemote, hFront, hBefore⟩
    exact ⟨before, gateway, after, rfl, find?_activeConnections_iff.mpr
      ⟨front, back, hReports, hConnected, hRemote, hFront⟩, (hNone before).mpr hBefore⟩

theorem latency?_eq_some_iff {remote : String} {gateways : List Json} {x : Float} :
    latency? gateways remote = some x ↔
      ∃ t text, FirstTunnel remote gateways t ∧ Averages t text ∧ Duration.parse? text = some x := by
  simp only [latency?, Option.bind_eq_some_iff, find?_tunnels_iff, averages_iff]
  exact ⟨fun ⟨t, hFirst, text, hText, hParse⟩ => ⟨t, text, hFirst, hText, hParse⟩,
    fun ⟨t, text, hFirst, hText, hParse⟩ => ⟨t, hFirst, text, hText, hParse⟩⟩

theorem FirstTunnel.tunnel {remote : String} {gateways : List Json} {t : Json}
    (h : FirstTunnel remote gateways t) : Tunnel gateways t := by
  obtain ⟨⟨hStatus, hActive, hConnections⟩, hConnected, _⟩ := h
  exact .reported (by simp) hStatus hActive hConnections (by simp) hConnected

/-- One connection less, which is not connected or leads elsewhere. -/
inductive Spared (remote : String) : List Json → List Json → Prop
  | one {front back : List Json} {c : Json} (h : ¬ (Connected c ∧ LeadsTo remote c)) :
      Spared remote (front ++ c :: back) (front ++ back)

/-- One gateway less, which is passive, or a connection less of some gateway. -/
inductive Bystander (remote : String) : List Json → List Json → Prop
  | gateway {front back : List Json} {g : Json} (h : ¬ Active g) :
      Bystander remote (front ++ g :: back) (front ++ back)
  | connection {front back : List Json} {g g' : Json} (h : Rewired (Spared remote) g g') :
      Bystander remote (front ++ g :: back) (front ++ g' :: back)

theorem filter_spared {remote : String} {xs ys : List Json} (h : Spared remote xs ys) :
    (ys.filter fun c => Connected c).filter (fun c => remote? c = some remote) =
      (xs.filter fun c => Connected c).filter fun c => remote? c = some remote := by
  obtain ⟨hOther⟩ := h
  rw [leadsTo_iff] at hOther
  rw [List.filter_filter, List.filter_filter, List.filter_append, List.filter_append,
    List.filter_cons_of_neg (by simpa [and_comm] using hOther)]

theorem latency?_bystander {remote : String} {gateways gateways' : List Json}
    (h : Bystander remote gateways gateways') :
    latency? gateways' remote = latency? gateways remote := by
  have hTunnels : (gateways'.flatMap activeConnections).filter (fun c => remote? c = some remote) =
      (gateways.flatMap activeConnections).filter fun c => remote? c = some remote := by
    cases h with
    | gateway hPassive =>
      simp only [List.flatMap_append, List.flatMap_cons, activeConnections_of_passive hPassive,
        List.nil_append]
    | connection hRewired =>
      simp only [List.flatMap_append, List.flatMap_cons, List.filter_append]
      rcases activeConnections_rewired hRewired with hSame | ⟨xs, ys, hSpared, hOld, hNew⟩
      · rw [hSame]
      · rw [hOld, hNew, filter_spared hSpared]
  rw [latency?, ← List.head?_filter, hTunnels, List.head?_filter, latency?]

/-- A deployment without gateways is not deployed, one with a tunnel connected, any other one
disconnected, in whatever order it is listed. A remote cluster has a latency just if there is a
tunnel to it and the first one gives a duration as its average; nothing else has a part in it. -/
theorem read_off_tunnels (gateways : List Json) :
    (classify gateways = .notDeployed ↔ gateways = []) ∧
    (classify gateways = .connected ↔ ∃ t, Tunnel gateways t) ∧
    (classify gateways = .disconnected ↔ gateways ≠ [] ∧ ¬ ∃ t, Tunnel gateways t) ∧
    (∀ gateways', Reordered gateways gateways' → classify gateways' = classify gateways) ∧
    ∀ remote,
      (∀ x, latency? gateways remote = some x ↔
        ∃ t text, FirstTunnel remote gateways t ∧ Averages t text ∧
          Duration.parse? text = some x) ∧
      (∀ x, latency? gateways remote = some x → classify gateways = .connected) ∧
      ∀ gateways', Bystander remote gateways gateways' →
        latency? gateways' remote = latency? gateways remote := by
  refine ⟨classify_eq_notDeployed_iff, classify_eq_connected_iff, classify_eq_disconnected_iff,
    fun _ => classify_reordered, fun remote => ⟨fun x => latency?_eq_some_iff, ?_, ?_⟩⟩
  · intro x hLatency
    obtain ⟨t, _, hFirst, _⟩ := latency?_eq_some_iff.mp hLatency
    exact classify_eq_connected_iff.mpr ⟨t, hFirst.tunnel⟩
  · exact fun _ => latency?_bystander

/-- A passive gateway, and an active one with a tunnel to another cluster and two to the remote. -/
theorem read_off_tunnels_two :
    let connection (state cluster average : String) : Json :=
      .obj [("endpoint", .obj [("cluster_id", .str cluster)]),
        ("latencyRTT", .obj [("average", .str average)]), ("status", .str state)]
    let gateway (role : String) (connections : List Json) : Json :=
      .obj [("status", .obj [("connections", .arr connections), ("haStatus", .str role)])]
    let passive := gateway "passive" [connection "connected" "cluster-b" "9ms"]
    let other := connection "connected" "cluster-c" "7ms"
    let first := connection "connected" "cluster-b" "2ms"
    let second := connection "connected" "cluster-b" "3ms"
    let active := gateway "active" [other, first, second]
    Reordered [passive, active] [gateway "active" [second, other, first], passive] ∧
      classify [gateway "active" [second, other, first], passive] = .connected ∧
      Bystander "cluster-b" [passive, active] [active] ∧
      Bystander "cluster-b" [passive, active] [passive, gateway "active" [first, second]] ∧
      latency? [active] "cluster-b" = some 2 ∧
      latency? [passive, gateway "active" [first, second]] "cluster-b" = some 2 := by
  intro connection gateway passive other first second active
  obtain ⟨_, _, _, hReordered, hRemote⟩ := read_off_tunnels [passive, active]
  obtain ⟨_, hConnected, hBystander⟩ := hRemote "cluster-b"
  have hLatency : latency? [passive, active] "cluster-b" = some 2 := by decide +kernel
  have hRewired : ∀ {r : List Json → List Json → Prop} {xs ys : List Json}, r xs ys →
      Rewired r (gateway "active" xs) (gateway "active" ys) :=
    fun h => @Within.member _ _ [] _ _ _ (@Within.member _ _ [] _ _ _ (.arr h))
  have hOrder : Reordered [passive, active] [gateway "active" [second, other, first], passive] :=
    ⟨[active, passive], .swap _ _ _,
      .cons (.single (hRewired (@List.perm_append_comm _ [other, first] [second])))
        (.cons .refl .nil)⟩
  have hPassive : Bystander "cluster-b" [passive, active] [active] := by
    refine @Bystander.gateway _ [] _ _ ?_
    rintro ⟨_, ⟨⟩, hActive⟩
    exact absurd hActive (by decide +kernel)
  have hElsewhere :
      Bystander "cluster-b" [passive, active] [passive, gateway "active" [first, second]] := by
    refine @Bystander.connection _ [passive] _ _ _ (hRewired (@Spared.one _ [] _ _ ?_))
    rintro ⟨_, _, ⟨⟩, hLeads⟩
    exact absurd hLeads (by decide +kernel)
  refine ⟨hOrder, ?_, hPassive, hElsewhere, ?_, ?_⟩
  · rw [hReordered _ hOrder, hConnected 2 hLatency]
  · rw [hBystander _ hPassive, hLatency]
  · rw [hBystander _ hElsewhere, hLatency]

end Gateway

end GatewayTelemetry
