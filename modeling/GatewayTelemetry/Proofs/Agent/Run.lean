import GatewayTelemetry.Agent
import GatewayTelemetry.Proofs.Collection.MultiCluster
import GatewayTelemetry.Proofs.Collection.Node
import GatewayTelemetry.Proofs.Polling.Run

/-! # The cycles of a run

A run of the agent, seen as the cycles it goes through, by hand and in loops, in order. Between two
cycles no limiter and no mark of new endpoints moves, and time does not go back. So an invariant of
cycles under a history (`Follows.invariant`) holds at every cycle of every run.
-/

namespace GatewayTelemetry

namespace Polling.Supervisor

theorem step_time (s : Supervisor) (a : Step) :
    s.clock ≤ (s.step a).state.clock ∧
      ∀ r ∈ (s.step a).log, ∀ e ∈ r.2, e.mark = .start →
        s.clock ≤ e.time ∧ e.time ≤ (s.step a).state.clock := by
  have hWith : ∀ target (react : Loop → Supervisor × Answer), (∀ l, (react l).1.clock = s.clock) →
      s.clock ≤ (s.withLoop target react).state.clock ∧ (s.withLoop target react).log = [] := by
    intro target react hReact
    unfold withLoop
    cases s.loop? target with
    | none => exact ⟨Nat.le_refl _, rfl⟩
    | some l => exact ⟨Nat.le_of_eq (hReact l).symm, rfl⟩
  cases a with
  | spawn target duty paused =>
    simp only [step, spawn]
    cases s.loop? target <;> simp
  | pause target => exact (hWith target _ fun _ => rfl).imp_right fun h => by simp [step, h]
  | resume target => exact (hWith target _ fun _ => rfl).imp_right fun h => by simp [step, h]
  | isPaused target => exact (hWith target _ fun _ => rfl).imp_right fun h => by simp [step, h]
  | pausingDuration target =>
    exact (hWith target _ fun _ => rfl).imp_right fun h => by simp [step, h]
  | lastHeartbeat target =>
    exact (hWith target _ fun _ => rfl).imp_right fun h => by simp [step, h]
  | interval => simp [step]
  | cancel => simp [step, cancel]
  | cancelOuter =>
    simp only [step, cancel]
    split <;> simp
  | sleep ms =>
    refine ⟨Nat.le_add_right _ _, ?_⟩
    intro r hr e he hStart
    obtain ⟨_, hLoop, rfl⟩ := List.mem_map.mp hr
    obtain ⟨l, _, rfl⟩ := List.mem_map.mp hLoop
    obtain ⟨hBefore, hFrom⟩ := l.advance_time _ _ _ _ e he
    exact ⟨(hFrom hStart).1, Nat.le_of_lt hBefore⟩
  | shutdown =>
    refine ⟨Nat.le_add_right _ _, ?_⟩
    intro r hr e he hStart
    obtain ⟨_, hLoop, rfl⟩ := List.mem_map.mp hr
    obtain ⟨l, _, rfl⟩ := List.mem_map.mp hLoop
    obtain ⟨_, hFrom⟩ := l.advance_time _ _ _ _ e he
    cases (hFrom hStart).2

end Polling.Supervisor

namespace Agent

theorem starts_sorted (log : Polling.Log) : (starts log).Pairwise fun x y => x.1 ≤ y.1 := by
  have hSorted := @List.pairwise_mergeSort (Nat × Target) (fun x y => decide (x.1 ≤ y.1))
    (by simpa using fun a _ b _ c _ => Nat.le_trans) (by simpa using fun a _ b _ => Nat.le_total a b)
    (log.flatMap fun l => (startsOf l.2).map fun time => (time, l.1))
  exact hSorted.imp fun hLe => of_decide_eq_true hLe

theorem mem_starts {log : Polling.Log} {d : Nat × Target} (h : d ∈ starts log) :
    ∃ r ∈ log, ∃ e ∈ r.2, e.mark = .start ∧ e.time = d.1 := by
  rw [starts, List.mem_mergeSort] at h
  obtain ⟨r, hr, hd⟩ := List.mem_flatMap.mp h
  obtain ⟨time, hTime, rfl⟩ := List.mem_map.mp hd
  obtain ⟨e, he, rfl⟩ := List.mem_map.mp hTime
  obtain ⟨hMem, hMark⟩ := List.mem_filter.mp he
  exact ⟨r, hr, e, hMem, by simpa using hMark, rfl⟩

structure Cycle where
  before : Agent
  target : Target
  time : Nat

namespace Cycle

def after (c : Cycle) : Agent := (c.before.cycle c.target c.time).1

def nodeResult (c : Cycle) : NodeCycle.Result (Option Hook) :=
  NodeCycle.run c.before.sources.node runHook c.time c.before.nodeLimiter
    ⟨c.before.cache, c.before.waiting⟩

def multiClusterResult (c : Cycle) : MultiClusterCycle.Result :=
  MultiClusterCycle.run c.before.sources.multiCluster c.time (c.before.options.stamp c.time)
    c.before.emission c.before.cache

def events (c : Cycle) : List Event :=
  match c.target with
  | .node => c.nodeResult.events
  | .multiCluster => c.multiClusterResult.event.toList

/-- The names of the nodes for which the cycle stores a usage, in the order of its listing. -/
def updated (c : Cycle) : List String :=
  match c.target with
  | .node => NodeCycle.updated c.before.sources.node runHook ⟨c.before.cache, c.before.waiting⟩
  | .multiCluster => []

def recorded? (c : Cycle) : Option (Cache × Bool) :=
  match c.target with
  | .node => none
  | .multiCluster =>
    MultiClusterCycle.recorded? c.before.sources.multiCluster (c.before.options.stamp c.time)
      c.before.cache

def Pushes (c : Cycle) : Prop := c.events ≠ []

theorem after_node {c : Cycle} (h : c.target = .node) :
    c.after = { c.before with
      cache := c.nodeResult.world.cache
      waiting := c.nodeResult.world.others
      nodeLimiter := c.nodeResult.limiter
      channel := c.before.channel.sendAll c.events } := by
  unfold after events
  rw [h]
  rfl

theorem after_multiCluster {c : Cycle} (h : c.target = .multiCluster) :
    c.after = { c.before with
      cache := c.multiClusterResult.cache
      emission := c.multiClusterResult.emission
      channel := c.before.channel.sendAll c.events } := by
  unfold after events
  rw [h]
  rfl

end Cycle

def after (a : Agent) (steps : List Step) : Agent := steps.foldl (fun a s => (a.step s).1) a

def begun (a : Agent) : Step → Agent × List (Nat × Target)
  | .collect target => (a, [(a.supervisor.clock, target)])
  | .spawn target paused =>
    let r := a.supervisor.step (.spawn target duty paused)
    ({ a with supervisor := r.state }, starts r.log)
  | .supervise step =>
    let r := a.supervisor.step step
    ({ a with supervisor := r.state }, starts r.log)
  | s => ((a.step s).1, [])

theorem step_eq (a : Agent) (s : Step) : (a.step s).1 = runStarts (a.begun s).1 (a.begun s).2 := by
  cases s <;> rfl

def dueCycles (a : Agent) : List (Nat × Target) → List Cycle
  | [] => []
  | d :: rest => ⟨a, d.2, d.1⟩ :: dueCycles (a.cycle d.2 d.1).1 rest

def cycles (a : Agent) : List Step → List Cycle
  | [] => []
  | s :: rest => dueCycles (a.begun s).1 (a.begun s).2 ++ (a.step s).1.cycles rest

structure Between (a b : Agent) : Prop where
  options : b.options = a.options
  nodeLimiter : b.nodeLimiter = a.nodeLimiter
  emission : b.emission = a.emission
  distinct : a.cache.Distinct → b.cache.Distinct

theorem Between.refl (a : Agent) : Between a a := ⟨rfl, rfl, rfl, id⟩

theorem Between.trans {a b c : Agent} (hFirst : Between a b) (hSecond : Between b c) :
    Between a c where
  options := hSecond.options.trans hFirst.options
  nodeLimiter := hSecond.nodeLimiter.trans hFirst.nodeLimiter
  emission := hSecond.emission.trans hFirst.emission
  distinct h := hSecond.distinct (hFirst.distinct h)

theorem begun_between (a : Agent) (s : Step) : Between a (a.begun s).1 := by
  cases s with
  | cache operation => exact ⟨rfl, rfl, rfl, fun h => h.apply operation⟩
  | configure | hook | collect | spawn | supervise | drain | dropReceiver | dump =>
    exact ⟨rfl, rfl, rfl, id⟩

theorem cycle_supervisor (a : Agent) (target : Target) (now : Nat) :
    (a.cycle target now).1.supervisor = a.supervisor := by
  cases target <;> rfl

theorem cycle_sources (a : Agent) (target : Target) (now : Nat) :
    (a.cycle target now).1.sources = a.sources := by
  cases target <;> rfl

theorem runStarts_supervisor (a : Agent) (due : List (Nat × Target)) :
    (runStarts a due).supervisor = a.supervisor := by
  induction due generalizing a with
  | nil => rfl
  | cons d rest ih => exact (ih _).trans (cycle_supervisor a d.2 d.1)

theorem begun_time (a : Agent) (s : Step) :
    a.supervisor.clock ≤ (a.begun s).1.supervisor.clock ∧
      (a.begun s).2.Pairwise (fun x y => x.1 ≤ y.1) ∧
      ∀ d ∈ (a.begun s).2,
        a.supervisor.clock ≤ d.1 ∧ d.1 ≤ (a.begun s).1.supervisor.clock := by
  have hSupervise : ∀ step, a.supervisor.clock ≤ (a.supervisor.step step).state.clock ∧
      (starts (a.supervisor.step step).log).Pairwise (fun x y => x.1 ≤ y.1) ∧
      ∀ d ∈ starts (a.supervisor.step step).log,
        a.supervisor.clock ≤ d.1 ∧ d.1 ≤ (a.supervisor.step step).state.clock := by
    intro step
    obtain ⟨hClock, hTimes⟩ := a.supervisor.step_time step
    refine ⟨hClock, starts_sorted _, ?_⟩
    intro d hd
    obtain ⟨r, hr, e, he, hMark, hTime⟩ := mem_starts hd
    rw [← hTime]
    exact hTimes r hr e he hMark
  cases s with
  | collect target => simp [begun]
  | spawn target paused => exact hSupervise _
  | supervise step => exact hSupervise step
  | configure | hook | cache | drain | dropReceiver | dump => simp [begun, step]

def Follows (a : Agent) (now : Nat) : List Cycle → Prop
  | [] => True
  | c :: rest => Between a c.before ∧ now ≤ c.time ∧ Follows c.after c.time rest

theorem Follows.later {a b : Agent} {now later : Nat} {cs : List Cycle} (h : Follows b later cs)
    (hBetween : Between a b) (hTime : now ≤ later) : Follows a now cs := by
  cases cs with
  | nil => trivial
  | cons c rest => exact ⟨hBetween.trans h.1, Nat.le_trans hTime h.2.1, h.2.2⟩

theorem follows_dueCycles {a : Agent} {now finish : Nat} {due : List (Nat × Target)}
    {rest : List Cycle} (hSorted : due.Pairwise fun x y => x.1 ≤ y.1)
    (hTimes : ∀ d ∈ due, now ≤ d.1 ∧ d.1 ≤ finish) (hFinish : now ≤ finish)
    (hRest : Follows (runStarts a due) finish rest) : Follows a now (dueCycles a due ++ rest) := by
  induction due generalizing a now with
  | nil => exact hRest.later (Between.refl a) hFinish
  | cons d more ih =>
    obtain ⟨hFirst, hMore⟩ := List.pairwise_cons.mp hSorted
    obtain ⟨hNow, hEnd⟩ := hTimes d List.mem_cons_self
    refine ⟨Between.refl a, hNow, ih hMore ?_ hEnd hRest⟩
    intro x hx
    exact ⟨hFirst x hx, (hTimes x (List.mem_cons_of_mem d hx)).2⟩

theorem follows_cycles (a : Agent) (steps : List Step) :
    Follows a a.supervisor.clock (a.cycles steps) := by
  induction steps generalizing a with
  | nil => trivial
  | cons s rest ih =>
    obtain ⟨hClock, hSorted, hTimes⟩ := a.begun_time s
    have hRest := ih (a.step s).1
    rw [step_eq, runStarts_supervisor] at hRest
    rw [cycles, step_eq]
    exact (follows_dueCycles hSorted hTimes hClock hRest).later (a.begun_between s) (Nat.le_refl _)

/-- What holds at first, lasts between cycles and is kept by every cycle, holds at every cycle, of
the agent, the time and the cycles so far. -/
theorem Follows.invariant {P : List Cycle → Agent → Nat → Prop}
    (hBetween : ∀ past a b now later, P past a now → Between a b → now ≤ later → P past b later)
    (hCycle : ∀ past c, P past c.before c.time → P (past ++ [c]) c.after c.time)
    {past : List Cycle} {a : Agent} {now : Nat} {cs : List Cycle} (hStart : P past a now)
    (h : Follows a now cs) {pre post : List Cycle} {c : Cycle} (hSplit : cs = pre ++ c :: post) :
    P (past ++ pre) c.before c.time := by
  induction pre generalizing past a now cs with
  | nil =>
    subst hSplit
    rw [List.append_nil]
    exact hBetween _ _ _ _ _ hStart h.1 h.2.1
  | cons d rest ih =>
    subst hSplit
    have hReached := hCycle _ _ (hBetween _ _ _ _ _ hStart h.1 h.2.1)
    have hLater := ih hReached h.2.2 rfl
    rwa [List.append_assoc] at hLater

section Keeping

variable {I : Agent → Prop}

theorem dueCycles_keep {a : Agent} {due : List (Nat × Target)}
    (hCycle : ∀ c ∈ dueCycles a due, I c.before → I c.after) (hStart : I a) :
    (∀ c ∈ dueCycles a due, I c.before ∧ I c.after) ∧ I (runStarts a due) := by
  induction due generalizing a with
  | nil => exact ⟨List.forall_mem_nil _, hStart⟩
  | cons d rest ih =>
    obtain ⟨hFirst, hRest⟩ := List.forall_mem_cons.mp hCycle
    have hReached : I (a.cycle d.2 d.1).1 := hFirst hStart
    obtain ⟨hCycles, hFinal⟩ := ih hRest hReached
    exact ⟨List.forall_mem_cons.mpr ⟨⟨hStart, hReached⟩, hCycles⟩, hFinal⟩

theorem cycles_keep {a : Agent} {steps : List Step}
    (hBegun : ∀ s ∈ steps, ∀ b, I b → I (b.begun s).1)
    (hCycle : ∀ c ∈ a.cycles steps, I c.before → I c.after) (hStart : I a) :
    (∀ c ∈ a.cycles steps, I c.before ∧ I c.after) ∧ I (a.after steps) := by
  induction steps generalizing a with
  | nil => exact ⟨List.forall_mem_nil _, hStart⟩
  | cons s rest ih =>
    obtain ⟨hDue, hLater⟩ := List.forall_mem_append.mp hCycle
    obtain ⟨hFirst, hReached⟩ := dueCycles_keep hDue (hBegun s List.mem_cons_self a hStart)
    rw [← step_eq] at hReached
    obtain ⟨hRest, hEnd⟩ := ih (fun x hx => hBegun x (List.mem_cons_of_mem s hx)) hLater hReached
    exact ⟨List.forall_mem_append.mpr ⟨hFirst, hRest⟩, hEnd⟩

theorem cycles_sources {a : Agent} {steps : List Step}
    (h : ∀ s ∈ steps, ∀ change, s ≠ .configure change) :
    ∀ c ∈ a.cycles steps, c.before.sources = a.sources := by
  have hBegun : ∀ s ∈ steps, ∀ b : Agent, b.sources = a.sources →
      (b.begun s).1.sources = a.sources := by
    intro s hs b hSame
    cases s with
    | configure change => exact absurd rfl (h _ hs change)
    | hook | cache | collect | spawn | supervise | drain | dropReceiver | dump => exact hSame
  have hCycle : ∀ c ∈ a.cycles steps, c.before.sources = a.sources → c.after.sources = a.sources :=
    fun c _ hSame => (cycle_sources c.before c.target c.time).trans hSame
  exact fun c hc => ((cycles_keep hBegun hCycle rfl).1 c hc).1

end Keeping

end Agent

end GatewayTelemetry
