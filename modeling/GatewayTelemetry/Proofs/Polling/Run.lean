import GatewayTelemetry.Polling.Supervisor

/-! # Runs of the supervisor

A run is a list of steps. Seen from one target, a supervisor holds at most one loop, and every step
but a cancellation treats that loop by itself: `own_step` says what a step does to it, `of_log_step`
what it logs.
-/

namespace GatewayTelemetry.Polling

theorem Loop.advance_settings (interval : Nat) (cancelled : Bool) (now stop : Nat) (l : Loop) :
    (l.advance interval cancelled now stop).1.target = l.target ∧
      (l.advance interval cancelled now stop).1.duty = l.duty ∧
      (l.advance interval cancelled now stop).1.paused = l.paused := by
  fun_induction Loop.advance interval cancelled now stop l with
  | case1 | case2 | case4 | case6 => exact ⟨rfl, rfl, rfl⟩
  | case3 _ _ _ _ _ _ _ _ _ hRun ih =>
    rw [hRun] at ih
    exact ih
  | case5 _ _ _ _ _ _ hRun ih =>
    rw [hRun] at ih
    exact ih

theorem Loop.advance_time (interval : Nat) (cancelled : Bool) (now stop : Nat) (l : Loop) :
    ∀ e ∈ (l.advance interval cancelled now stop).2,
      e.time < stop ∧ (e.mark = .start → now ≤ e.time ∧ cancelled = false) := by
  fun_induction Loop.advance interval cancelled now stop l with
  | case1 | case2 | case4 | case6 => simp
  | case3 _ _ _ hRunning hFree time _ _ _ hRun ih =>
    rw [hRun] at ih
    rintro e (_ | ⟨_, he⟩)
    · exact ⟨hFree.2, fun _ => ⟨Nat.le_max_right _ _, by simpa using hRunning⟩⟩
    · exact ih e he
  | case5 _ _ _ hOver _ _ hRun ih =>
    rw [hRun] at ih
    rintro e (_ | ⟨_, he⟩)
    · exact ⟨hOver, nofun⟩
    · exact ih e he

def Log.of (target : Target) (log : Log) : List LogEntry :=
  (log.filter fun r => r.1 = target).flatMap (·.2)

@[simp] theorem Log.of_nil (target : Target) : Log.of target [] = [] := rfl

theorem Log.of_append (target : Target) (first second : Log) :
    Log.of target (first ++ second) = first.of target ++ second.of target := by
  simp [Log.of]

namespace Step

def Cancels (derived : Bool) : Step → Prop
  | cancel | shutdown => True
  | cancelOuter => derived = true
  | _ => False

def length : Step → Nat
  | sleep ms => ms
  | _ => 0

end Step

namespace Supervisor

def after (s : Supervisor) (steps : List Step) : Supervisor :=
  steps.foldl (fun s a => (s.step a).state) s

def history (s : Supervisor) : List Step → Log
  | [] => []
  | a :: rest => (s.step a).log ++ (s.step a).state.history rest

@[simp] theorem after_nil (s : Supervisor) : s.after [] = s := rfl

@[simp] theorem after_cons (s : Supervisor) (a : Step) (rest : List Step) :
    s.after (a :: rest) = (s.step a).state.after rest := rfl

theorem after_append (s : Supervisor) (first second : List Step) :
    s.after (first ++ second) = (s.after first).after second := by
  simp [after]

theorem history_append (s : Supervisor) (first second : List Step) :
    s.history (first ++ second) = s.history first ++ (s.after first).history second := by
  induction first generalizing s with
  | nil => rfl
  | cons a rest ih => simp [history, ih]

def own (s : Supervisor) (target : Target) : List Loop := s.loops.filter fun l => l.target = target

theorem loop?_eq_head? (s : Supervisor) (target : Target) : s.loop? target = (s.own target).head? := by
  rw [own, List.head?_filter]
  rfl

theorem loop?_of_own {s : Supervisor} {target : Target} {o : Option Loop}
    (h : s.own target = o.toList) : s.loop? target = o := by
  rw [loop?_eq_head?, h]
  cases o <;> rfl

theorem target_of_own {s : Supervisor} {target : Target} {l : Loop}
    (h : s.own target = [l]) : l.target = target := by
  have hMem : l ∈ s.own target := by simp [h]
  simpa [own] using (List.mem_filter.mp hMem).2

theorem wake_target (now : Nat) (l : Loop) : (wake now l).target = l.target := by
  unfold wake
  split <;> rfl

theorem wake_paused (now : Nat) (l : Loop) : (wake now l).paused = false := by
  unfold wake
  split <;> rfl

theorem pauseLoop_target (target : Target) (l : Loop) : (pauseLoop target l).target = l.target := by
  unfold pauseLoop
  split <;> rfl

theorem filter_map_target (target : Target) {f : Loop → Loop} (hf : ∀ l, (f l).target = l.target)
    (loops : List Loop) :
    (loops.map f).filter (fun l => l.target = target) =
      (loops.filter fun l => l.target = target).map f := by
  rw [List.filter_map]
  congr 1
  apply List.filter_congr
  intro l _
  simp [hf l]

def follow (s : Supervisor) (target : Target) (o : Option Loop) : Step → Option Loop
  | .spawn t duty paused => if t = target then o.or (some (.fresh target duty paused s.clock)) else o
  | .pause t => if t = target then o.map fun l => { l with paused := true } else o
  | .resume t => if t = target then o.map (wake s.clock) else o
  | .sleep ms => o.map fun l => (l.advance s.interval s.cancelled s.clock (s.clock + ms)).1
  | .shutdown => o.map fun l => (l.advance s.interval true s.clock (s.clock + s.remaining + 1)).1
  | _ => o

def entries (s : Supervisor) (o : Option Loop) : Step → List LogEntry
  | .sleep ms =>
    o.elim [] fun l => (l.advance s.interval s.cancelled s.clock (s.clock + ms)).2
  | .shutdown =>
    o.elim [] fun l => (l.advance s.interval true s.clock (s.clock + s.remaining + 1)).2
  | _ => []

theorem step_settings (s : Supervisor) (a : Step) (h : ¬ a.Cancels s.derived) :
    (s.step a).state.interval = s.interval ∧ (s.step a).state.derived = s.derived ∧
      (s.step a).state.cancelled = s.cancelled ∧ (s.step a).state.clock = s.clock + a.length := by
  cases a with
  | spawn t duty paused =>
    simp only [step]
    split
    · rename_i s' hs
      unfold spawn at hs
      split at hs <;> cases hs
      exact ⟨rfl, rfl, rfl, rfl⟩
    · exact ⟨rfl, rfl, rfl, rfl⟩
  | pause t | resume t | isPaused t | pausingDuration t | lastHeartbeat t =>
    simp only [step, withLoop]
    split <;> exact ⟨rfl, rfl, rfl, rfl⟩
  | interval | sleep ms => exact ⟨rfl, rfl, rfl, rfl⟩
  | cancelOuter =>
    have hDerived : s.derived = false := by simpa [Step.Cancels] using h
    simp [step, hDerived, Step.length]
  | cancel | shutdown => exact absurd trivial h

theorem own_run (s : Supervisor) (target : Target) (o : Option Loop) (stop finish : Nat)
    (h : s.own target = o.toList) :
    (s.run stop finish).1.own target =
        (o.map fun l => (l.advance s.interval s.cancelled s.clock stop).1).toList ∧
      Log.of target (s.run stop finish).2 =
        o.elim [] fun l => (l.advance s.interval s.cancelled s.clock stop).2 := by
  have hTargets : ∀ l : Loop,
      (l.advance s.interval s.cancelled s.clock stop).1.target = l.target :=
    fun l => (l.advance_settings s.interval s.cancelled s.clock stop).1
  constructor
  · have hMap : (s.run stop finish).1.loops =
        s.loops.map fun l => (l.advance s.interval s.cancelled s.clock stop).1 := by
      simp [run]
    rw [own, hMap, filter_map_target target hTargets, ← own, h]
    cases o <;> rfl
  · have hLog : Log.of target (s.run stop finish).2 =
        (s.own target).flatMap fun l => (l.advance s.interval s.cancelled s.clock stop).2 := by
      simp only [run, Log.of, List.map_map, List.filter_map, List.flatMap_map, own]
      congr 1
      apply List.filter_congr
      intro l _
      simp [hTargets]
    rw [hLog, h]
    cases o <;> simp

theorem own_resumeIn (now : Nat) (t target : Target) (loops : List Loop) (o : Option Loop)
    (h : loops.filter (fun l => l.target = target) = o.toList) :
    (resumeIn now t loops).filter (fun l => l.target = target) =
      (if t = target then o.map (wake now) else o).toList := by
  have hSwap (p : Loop → Bool) : (loops.filter p).filter (fun l => l.target = target) =
      o.toList.filter p := by
    rw [← h, List.filter_filter, List.filter_filter]
    exact List.filter_congr fun l _ => Bool.and_comm _ _
  simp only [resumeIn, List.partition_eq_filter_filter, List.filter_append]
  rw [filter_map_target target (wake_target now),
    filter_map_target target (f := fun l => if l.target = t then wake now l else l)]
  · rw [hSwap, hSwap]
    cases o with
    | none => simp
    | some l =>
      have hl : l.target = target := by
        have hMem : l ∈ loops.filter fun l => l.target = target := by simp [h]
        simpa using (List.mem_filter.mp hMem).2
      by_cases ht : t = target
      · subst hl ht
        by_cases hParked : isParked now l = true <;> simp [hParked]
      · have hNe : ¬ l.target = t := fun e => ht (e.symm.trans hl)
        simp [ht, hNe]
  · intro l
    split
    · exact wake_target now l
    · rfl

theorem own_step (s : Supervisor) (target : Target) (o : Option Loop) (a : Step)
    (h : s.own target = o.toList) :
    (s.step a).state.own target = (s.follow target o a).toList := by
  have hLoop := loop?_of_own h
  cases a with
  | spawn t duty paused =>
    by_cases ht : t = target
    · subst ht
      cases o with
      | none => simpa [step, spawn, hLoop, follow, own, Loop.fresh] using h
      | some l => simpa [step, spawn, hLoop, follow] using h
    · simp only [step, spawn, follow, if_neg ht]
      split
      · rename_i s' hs
        split at hs
        · cases hs
        · cases hs
          simpa [own, Loop.fresh, ht] using h
      · exact h
  | pause t =>
    simp only [step, withLoop, follow]
    split
    · rw [own, filter_map_target target (pauseLoop_target t), ← own, h]
      cases o with
      | none => simp
      | some l =>
        have hl : l.target = target := target_of_own h
        by_cases ht : t = target
        · simp [ht, pauseLoop, hl]
        · simp [ht, pauseLoop, hl, Ne.symm ht]
    · rename_i hNone
      by_cases ht : t = target
      · subst ht
        rw [hLoop] at hNone
        subst hNone
        simpa using h
      · simpa [ht] using h
  | resume t =>
    simp only [step, withLoop, follow]
    split
    · exact own_resumeIn s.clock t target s.loops o h
    · rename_i hNone
      by_cases ht : t = target
      · subst ht
        rw [hLoop] at hNone
        subst hNone
        simpa using h
      · simpa [ht] using h
  | isPaused t | pausingDuration t | lastHeartbeat t =>
    simp only [step, withLoop, follow]
    split <;> exact h
  | interval => exact h
  | sleep ms => exact (own_run s target o _ _ h).1
  | cancel => exact h
  | cancelOuter =>
    simp only [step, follow]
    split <;> exact h
  | shutdown => exact (own_run s.cancel target o _ _ h).1

theorem of_log_step (s : Supervisor) (target : Target) (o : Option Loop) (a : Step)
    (h : s.own target = o.toList) : Log.of target (s.step a).log = s.entries o a := by
  cases a with
  | sleep ms => exact (own_run s target o _ (s.clock + ms) h).2
  | shutdown => exact (own_run s.cancel target o _ (s.clock + s.remaining) h).2
  | spawn t duty paused =>
    simp only [step, entries]
    split <;> rfl
  | pause t | resume t | isPaused t | pausingDuration t | lastHeartbeat t =>
    simp only [step, withLoop, entries]
    split <;> rfl
  | interval | cancel | cancelOuter => rfl

end Supervisor

end GatewayTelemetry.Polling
