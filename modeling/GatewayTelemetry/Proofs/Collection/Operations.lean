import GatewayTelemetry.Proofs.Collection.MultiCluster
import GatewayTelemetry.Proofs.Collection.Node
import GatewayTelemetry.Proofs.Outcome

/-! # A cycle as operations on the cache

Between the points at which others may work, a cycle works on the cache only by operations of its
own. So what those operations keep, a whole cycle keeps.
-/

namespace GatewayTelemetry

open Cache (Operation)

namespace NodeCycle

variable {σ : Type} {s : Sources} {others : Others σ} {u : Usages}

inductive Own (s : Sources) : Operation → Prop
  | reconcile : Own s (.reconcile s.live)
  | address (name : String) (address : Option String) : Own s (.setAddress name address)
  | cpu {reports : List (Reported Usage)} (h : s.cpu = .ok reports) {r : Reported Usage}
      (hr : r ∈ reports) (name : String) : Own s (.setCpu name r.metric)
  | memory {reports : List (Reported Usage)} (h : s.memory = .ok reports) {r : Reported Usage}
      (hr : r ∈ reports) (name : String) : Own s (.setMemory name r.metric)
  | network {reports : List (Reported NetworkUsage)} (h : s.network = .ok reports)
      {r : Reported NetworkUsage} (hr : r ∈ reports) (name : String) :
      Own s (.setNetwork name r.metric)

structure Lasts (s : Sources) (others : Others σ) (I : World σ → Prop) : Prop where
  own : ∀ {c : Cache} {x : σ} {op : Operation}, Own s op → I ⟨c, x⟩ → I ⟨(c.apply op).1, x⟩
  yield : ∀ {w : World σ} (point : Point), I w → I (w.yield others point)

namespace Lasts

variable {I : World σ → Prop} {c c' : Cache} {x : σ}

theorem resolveNode (h : Lasts s others I) (n : NodeRecord) (hStart : I ⟨c, x⟩) :
    I ⟨(resolveNode s c n).1, x⟩ := by
  have hAddress : ∀ address, I ⟨attempt c (c.setAddress n.name address), x⟩ := by
    intro address
    have hSettled : attempt c (c.setAddress n.name address) =
        (c.apply (.setAddress n.name address)).1 := by
      show _ = (c.settle (c.setAddress n.name address)).1
      cases c.setAddress n.name address <;> rfl
    rw [hSettled]
    exact h.own (.address n.name address) hStart
  unfold NodeCycle.resolveNode
  cases s.exporterIp n.name with
  | none =>
    dsimp only
    split
    · exact hAddress none
    · exact hStart
  | some ip =>
    have hWritten := hAddress (some (addressText ip s.exporterPort))
    dsimp only
    cases hSet : c.setAddress n.name (some (addressText ip s.exporterPort)) with
    | ok c' =>
      rw [hSet] at hWritten
      exact hWritten
    | error e => exact hStart

theorem resolve (h : Lasts s others I) (nodes : List NodeRecord) {w : World σ} (hStart : I w) :
    I (resolve s others nodes w).1 := by
  induction nodes generalizing w with
  | nil => exact hStart
  | cons n rest ih => exact ih (h.resolveNode n (h.yield (.lookup n.name) hStart))

theorem storePart (h : Lasts s others I) {α : Type} (operation : String → α → Operation)
    {set : Cache → String → α → Except AgentError Cache}
    (hSet : ∀ (c : Cache) (node : String) (a : α),
      c.apply (operation node a) = c.settle (set c node a))
    {node : String} {part : Option α} (hOwn : ∀ a ∈ part, Own s (operation node a))
    (hStart : I ⟨c, x⟩) (hStored : storePart set node part c = .ok c') : I ⟨c', x⟩ := by
  cases part with
  | none =>
    cases hStored
    exact hStart
  | some a =>
    have hApplied : (c.apply (operation node a)).1 = c' := by
      rw [hSet, show set c node a = .ok c' from hStored]
      rfl
    rw [← hApplied]
    exact h.own (hOwn a rfl) hStart

theorem store (h : Lasts s others I) (hUsages : usages s = .ok u) {node address : String}
    {stored : Bool} (hStart : I ⟨c, x⟩) (hStored : store u c node address = .ok (c', stored)) :
    I ⟨c', x⟩ := by
  obtain ⟨hCpu, hMemory, hNetwork⟩ := usages_eq_ok_iff.mp hUsages
  have hReported : ∀ {α : Type} {reports : List (Reported α)} {a : α},
      a ∈ Reported.find? reports address → ∃ r ∈ reports, r.metric = a := by
    intro α reports a ha
    obtain ⟨r, hr, hMetric⟩ := Option.map_eq_some_iff.mp ha
    exact ⟨r, List.mem_of_find?_eq_some hr, hMetric⟩
  obtain ⟨c₁, hFirst, hStored⟩ := bind_eq_ok_iff.mp hStored
  obtain ⟨c₂, hSecond, hStored⟩ := bind_eq_ok_iff.mp hStored
  obtain ⟨c₃, hThird, hStored⟩ := bind_eq_ok_iff.mp hStored
  obtain rfl : c₃ = c' := congrArg Prod.fst (Except.ok.inj hStored)
  have hAfterCpu : I ⟨c₁, x⟩ := by
    refine h.storePart .setCpu (fun _ _ _ => rfl) ?_ hStart hFirst
    intro a ha
    obtain ⟨r, hr, rfl⟩ := hReported ha
    exact .cpu hCpu hr node
  have hAfterMemory : I ⟨c₂, x⟩ := by
    refine h.storePart .setMemory (fun _ _ _ => rfl) ?_ hAfterCpu hSecond
    intro a ha
    obtain ⟨r, hr, rfl⟩ := hReported ha
    exact .memory hMemory hr node
  refine h.storePart .setNetwork (fun _ _ _ => rfl) ?_ hAfterMemory hThird
  intro a ha
  obtain ⟨r, hr, rfl⟩ := hReported ha
  exact .network hNetwork hr node

theorem storeAll (h : Lasts s others I) (hUsages : usages s = .ok u)
    (resolved : List (String × String)) (hStart : I ⟨c, x⟩) :
    I ⟨(storeAll u resolved c).1, x⟩ := by
  induction resolved generalizing c with
  | nil => exact hStart
  | cons r rest ih =>
    obtain ⟨node, address⟩ := r
    unfold NodeCycle.storeAll
    cases hStored : NodeCycle.store u c node address with
    | error e => cases e <;> first | exact ih hStart | exact hStart
    | ok result =>
      obtain ⟨c', stored⟩ := result
      cases stored <;> exact ih (h.store hUsages hStart hStored)

theorem finish (h : Lasts s others I) (now : Nat) (limiter : RateLimiter)
    (resolved : List (String × String)) {w : World σ} (hStart : I w) :
    I (finish s now limiter resolved w).world := by
  unfold NodeCycle.finish
  cases hUsages : usages s with
  | error e => cases e <;> exact hStart
  | ok u =>
    have hStored := h.storeAll hUsages resolved hStart
    cases hAll : NodeCycle.storeAll u resolved w.cache with
    | mk c updated =>
      rw [hAll] at hStored
      simp only [hAll]
      cases updated <;> exact hStored

theorem run (h : Lasts s others I) (now : Nat) (limiter : RateLimiter) {w : World σ}
    (hStart : I w) : I (run s others now limiter w).world := by
  have hListing : I (listing s others w) := h.yield .readiness (h.own .reconcile hStart)
  have hResolution : I (resolution s others w).1 := h.resolve _ hListing
  rw [run_eq]
  split
  · exact hListing
  · split
    · exact hResolution
    · exact h.finish now limiter _ (h.yield .query hResolution)

end Lasts

end NodeCycle

namespace MultiClusterCycle

inductive Own (s : Sources) : Operation → Prop
  | record {remote : String} (h : s.remote = .ok (some remote)) (stamp : Float)
      (received sent : UInt64) : Own s (.record remote ⟨stamp, received, sent, s.latency remote⟩)

theorem run_cache (s : Sources) (now : Nat) (stamp : Float) (e : Emission) (c : Cache) :
    (run s now stamp e c).cache = c ∨
      ∃ op, Own s op ∧ (run s now stamp e c).cache = (c.apply op).1 := by
  cases hRecorded : recorded? s stamp c with
  | none =>
    obtain ⟨outcome, hRun⟩ := run_of_unrecorded now e hRecorded
    exact .inl (by rw [hRun])
  | some r =>
    obtain ⟨c', created⟩ := r
    obtain ⟨remote, received, sent, hRemote, _, hRecord⟩ := recorded_ok hRecorded
    obtain ⟨_, _, hConfigured, _⟩ := connectedRemote?_eq_some_iff.mp hRemote
    refine .inr ⟨_, .record hConfigured stamp received sent, ?_⟩
    rw [run_of_recorded now e hRecorded, Cache.apply_record, hRecord]

end MultiClusterCycle

end GatewayTelemetry
