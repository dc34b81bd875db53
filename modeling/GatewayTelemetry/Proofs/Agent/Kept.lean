import GatewayTelemetry.Proofs.Agent.Run
import GatewayTelemetry.Proofs.Collection.Operations

/-! # What operations keep, runs keep

An agent works on its cache only by operations: those of its cycles, and those of others, which come
in between cycles or wait in a hook until a node cycle takes them. So what every such operation keeps
of a cache, a run keeps.
-/

namespace GatewayTelemetry.Agent

open Cache (Operation)

def Step.operations : Step → List Operation
  | .hook h => h.operations
  | .cache op => [op]
  | _ => []

def Sources.Own (s : Sources) (op : Operation) : Prop :=
  NodeCycle.Own s.node op ∨ MultiClusterCycle.Own s.multiCluster op

structure Kept (P : Cache → Prop) (Q : Operation → Prop) (a : Agent) : Prop where
  cache : P a.cache
  waiting : ∀ h ∈ a.waiting, ∀ op ∈ h.operations, Q op

namespace Kept

variable {P : Cache → Prop} {Q : Operation → Prop} {a : Agent}
  (hApply : ∀ (c : Cache) (op : Operation), Q op → P c → P (c.apply op).1)

include hApply

theorem applyAll {c : Cache} (hCache : P c) {operations : List Operation}
    (h : ∀ op ∈ operations, Q op) : P (c.applyAll operations) := by
  induction operations generalizing c with
  | nil => exact hCache
  | cons op rest ih =>
    obtain ⟨hOp, hRest⟩ := List.forall_mem_cons.mp h
    exact ih (hApply c op hOp hCache) hRest

theorem begun (h : Kept P Q a) {s : Step} (hStep : ∀ op ∈ s.operations, Q op) :
    Kept P Q (a.begun s).1 := by
  cases s with
  | cache op => exact ⟨hApply _ op (hStep op (List.mem_singleton_self op)) h.cache, h.waiting⟩
  | hook hook =>
    refine ⟨h.cache, ?_⟩
    rintro _ ⟨⟩
    exact hStep
  | configure | collect | spawn | supervise | drain | dropReceiver | dump =>
    exact ⟨h.cache, h.waiting⟩

/-- Others come into a node cycle only as the waiting hook. -/
theorem lasts {s : NodeCycle.Sources} (hOwn : ∀ op, NodeCycle.Own s op → Q op) :
    NodeCycle.Lasts s runHook fun w =>
      P w.cache ∧ ∀ h ∈ w.others, ∀ op ∈ h.operations, Q op where
  own hOp := And.imp_left fun hCache => hApply _ _ (hOwn _ hOp) hCache
  yield := by
    rintro ⟨c, waiting⟩ point ⟨hCache, hWaiting⟩
    cases waiting with
    | none => exact ⟨hCache, hWaiting⟩
    | some hook =>
      simp only [NodeCycle.World.yield, runHook]
      split
      · exact ⟨applyAll hApply hCache (hWaiting hook rfl), nofun⟩
      · exact ⟨hCache, hWaiting⟩

theorem cycle {c : Cycle} (hOwn : ∀ op, c.before.sources.Own op → Q op)
    (h : Kept P Q c.before) : Kept P Q c.after := by
  cases hTarget : c.target with
  | node =>
    have hLasts := lasts hApply fun op hOp => hOwn op (.inl hOp)
    obtain ⟨hCache, hWaiting⟩ := hLasts.run c.time c.before.nodeLimiter
      (w := ⟨c.before.cache, c.before.waiting⟩) ⟨h.cache, h.waiting⟩
    rw [Cycle.after_node hTarget]
    exact ⟨hCache, hWaiting⟩
  | multiCluster =>
    have hCache : P c.multiClusterResult.cache := by
      unfold Cycle.multiClusterResult
      rcases MultiClusterCycle.run_cache c.before.sources.multiCluster c.time
        (c.before.options.stamp c.time) c.before.emission c.before.cache with
        hSame | ⟨op, hOp, hOne⟩
      · rw [hSame]
        exact h.cache
      · rw [hOne]
        exact hApply _ op (hOwn op (.inr hOp)) h.cache
    rw [Cycle.after_multiCluster hTarget]
    exact ⟨hCache, h.waiting⟩

theorem run {steps : List Step} (h : Kept P Q a)
    (hOwn : ∀ c ∈ a.cycles steps, ∀ op, c.before.sources.Own op → Q op)
    (hOthers : ∀ s ∈ steps, ∀ op ∈ s.operations, Q op) :
    (∀ c ∈ a.cycles steps, Kept P Q c.before ∧ Kept P Q c.after) ∧ Kept P Q (a.after steps) :=
  cycles_keep (fun s hs _ hKept => hKept.begun hApply (hOthers s hs))
    (fun c hc hKept => hKept.cycle hApply (hOwn c hc)) h

end Kept

end GatewayTelemetry.Agent
