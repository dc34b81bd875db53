import GatewayTelemetry.Proofs.Polling.Progress

/-! # Cycles on schedule

`cycles_on_schedule`: a loop logs exactly the cycles of its schedule, whatever steps a run has and
however those of the two targets are mixed. So cycles never overlap, a pause interrupts none, and a
resume is never lost.
-/

namespace GatewayTelemetry.Polling

variable {gate : Nat → Prop} {interval origin now : Nat} {duty : Duty}

theorem Duty.entries_of_past {starts : List Nat} {log : List LogEntry}
    (hLog : ∀ e ∈ starts.flatMap duty.cycle, e ∈ log) (hPast : ∀ e ∈ log, e.time < now) :
    starts.flatMap duty.cycle = starts.flatMap (duty.entries now) := by
  rw [List.flatMap_def, List.flatMap_def]
  congr 1
  apply List.map_congr_left
  intro x hx
  have hOver : x + duty.work < now := by
    apply hPast ⟨.finish, x + duty.work⟩
    apply hLog
    exact List.mem_flatMap.mpr ⟨x, hx, by simp [Duty.cycle]⟩
  simp [Duty.cycle, Duty.entries, hOver]

theorem Tracks.schedule {l : Loop} {starts : List Nat} {log : List LogEntry}
    (h : Tracks gate interval duty origin now l starts log) (hEnd : ∀ x, gate x → x < now)
    (hPast : ∀ e ∈ log, e.time < now) :
    Schedule gate interval duty origin starts ∧ log = starts.flatMap (duty.entries now) := by
  obtain ⟨_, _, hFits⟩ := h
  generalize l.phase = phase, l.ended = n at hFits
  cases hFits with
  | @resting _ due since hCycles hClosed hSince =>
    refine ⟨⟨starts, due, [], by simp, hCycles, .waiting ?_⟩, ?_⟩
    · intro x hDue hOpen
      exact hClosed x hDue (hEnd x hOpen) hOpen
    · exact Duty.entries_of_past (fun _ he => he) hPast
  | @working starts due x hCycles hFirst hNow =>
    constructor
    · by_cases hPanic : duty.outcome starts.length = .panic
      · exact ⟨starts, due, [x], rfl, hCycles, .panicked hFirst hPanic⟩
      · refine ⟨starts ++ [x], _, [], by simp, .next hCycles hFirst hPanic, .waiting ?_⟩
        intro y hDue hOpen
        have := hEnd y hOpen
        omega
    · rw [List.flatMap_append,
        Duty.entries_of_past (fun e he => List.mem_append_left _ he) hPast]
      simp [Duty.entries, Nat.not_lt.mpr hNow]
  | @stopped starts due x hCycles hFirst hPanic =>
    refine ⟨⟨starts, due, [x], rfl, hCycles, .panicked hFirst hPanic⟩, ?_⟩
    exact Duty.entries_of_past (fun _ he => he) hPast

theorem Supervisor.unregistered (target : Target) (steps : List Step) (s : Supervisor)
    (hOwn : s.own target = []) (hSpawn : ∀ d p, Step.spawn target d p ∉ steps)
    (hCancels : ∀ a ∈ steps, ¬ a.Cancels s.derived) :
    (s.after steps).own target = [] ∧ Log.of target (s.history steps) = [] ∧
      steps.foldl (flagAfter target) none = none ∧
      (s.after steps).interval = s.interval ∧ (s.after steps).derived = s.derived ∧
      (s.after steps).cancelled = s.cancelled ∧ (s.after steps).clock = s.clock + elapsed steps := by
  induction steps generalizing s with
  | nil => exact ⟨hOwn, rfl, rfl, rfl, rfl, rfl, rfl⟩
  | cons a rest ih =>
    obtain ⟨hFirst, hRest⟩ := List.forall_mem_cons.mp hCancels
    obtain ⟨hInterval, hDerived, hCancelled, hClock⟩ := step_settings s a hFirst
    have hFollow : s.follow target none a = none ∧ s.entries none a = [] ∧
        flagAfter target none a = none := by
      cases a with
      | spawn t d p =>
        have hNe : t ≠ target := by
          rintro rfl
          exact hSpawn d p List.mem_cons_self
        simp [follow, entries, flagAfter, hNe]
      | pause t | resume t => simp [follow, entries, flagAfter]
      | _ => exact ⟨rfl, rfl, rfl⟩
    obtain ⟨hNone, hQuiet, hFlag⟩ := hFollow
    have hOwn' := own_step s target none a hOwn
    have hLog := of_log_step s target none a hOwn
    rw [hNone] at hOwn'
    rw [hQuiet] at hLog
    obtain ⟨hOwn'', hLog', hFlag', hInterval', hDerived', hCancelled', hClock'⟩ :=
      ih (s.step a).state hOwn' (fun d p h => hSpawn d p (List.mem_cons_of_mem a h))
        (by rwa [hDerived])
    refine ⟨hOwn'', ?_, ?_, hInterval'.trans hInterval, hDerived'.trans hDerived,
      hCancelled'.trans hCancelled, ?_⟩
    · rw [history, Log.of_append, hLog, hLog', List.append_nil]
    · rw [List.foldl_cons, hFlag, hFlag']
    · rw [after_cons, hClock', hClock, elapsed_cons, Nat.add_assoc]

theorem Stands.registered {target : Target} {before : List Step} {s : Supervisor}
    (steps : List Step) (duty : Duty) (paused : Bool) (hInterval : s.interval = interval)
    (hRunning : s.cancelled = false) (hClock : s.clock = elapsed before)
    (hOwn : s.own target = []) (hFlag : flag? target before = none) :
    Stands target interval duty (elapsed before) steps (before ++ [.spawn target duty paused])
      (s.step (.spawn target duty paused)).state (.fresh target duty paused s.clock) [] [] := by
  have hSettings := Supervisor.step_settings s (.spawn target duty paused) (by simp [Step.Cancels])
  have hOwn' := Supervisor.own_step s target none (.spawn target duty paused) hOwn
  obtain ⟨hInterval', _, hCancelled', hClock'⟩ := hSettings
  exact
    { interval_eq := hInterval'.trans hInterval
      running := hCancelled'.trans hRunning
      clock_eq := by simp [hClock', hClock, Step.length, elapsed]
      own_eq := by simpa [Supervisor.follow] using hOwn'
      flag_eq := by simp [flag?_append, hFlag, flagAfter, Loop.fresh]
      tracks := by
        refine ⟨rfl, rfl, ?_⟩
        rw [hClock', hClock]
        exact .resting .none (by intro x hFrom hTo; simp [Step.length] at hTo; omega) (.inl rfl)
      past := by simp }

/-- A loop logs exactly the cycles of its schedule, each with its end one
working time after its start; the heartbeat is the latest start. -/
theorem cycles_on_schedule (interval : Nat) (derived : Bool) (before after : List Step)
    (target : Target) (duty : Duty) (paused : Bool) (hInterval : 0 < interval)
    (hFirst : ∀ d p, Step.spawn target d p ∉ before)
    (hCancels : ∀ a ∈ before ++ .spawn target duty paused :: after, ¬ a.Cancels derived) :
    let steps := before ++ .spawn target duty paused :: after
    let s := Supervisor.ofInterval interval derived
    ∃ starts,
      (∀ xs, Schedule (Gate target steps) interval duty (elapsed before) xs ↔ xs = starts) ∧
      Log.of target (s.history steps) = starts.flatMap (duty.entries (elapsed steps)) ∧
      starts.Pairwise (fun x y => x + duty.work + interval ≤ y) ∧
      ((s.after steps).step (.pausingDuration target)).answer =
        .ok (.duration (starts.getLast?.map (elapsed steps - ·))) ∧
      ∃ flag, flag? target steps = some flag ∧
        ((s.after steps).step (.isPaused target)).answer = .ok (.flag flag) := by
  intro steps s
  obtain ⟨hBefore, hSpawn, hAfter⟩ : (∀ a ∈ before, ¬ a.Cancels derived) ∧
      ¬ (Step.spawn target duty paused).Cancels derived ∧ ∀ a ∈ after, ¬ a.Cancels derived := by
    simpa only [List.forall_mem_append, List.forall_mem_cons] using hCancels
  obtain ⟨hOwn, hLog, hFlag, hSInterval, hSDerived, hSCancelled, hSClock⟩ :=
    Supervisor.unregistered target before s rfl hFirst hBefore
  have hClock : (s.after before).clock = elapsed before := hSClock.trans (Nat.zero_add _)
  have hStands := Stands.registered steps duty paused hSInterval hSCancelled hClock hOwn hFlag
  have hDerived :=
    (Supervisor.step_settings (s.after before) (.spawn target duty paused) hSpawn).2.1
  have hSteps : before ++ [.spawn target duty paused] ++ after = steps := by simp [steps]
  rw [← hSteps] at hStands
  obtain ⟨l, starts, hEnd⟩ := Stands.run hInterval after (before ++ [.spawn target duty paused])
    hStands (by rwa [hDerived, hSDerived])
  rw [hSteps, List.nil_append, ← Supervisor.after_cons, ← Supervisor.after_append] at hEnd
  have hHistory : Log.of target (s.history steps) = Log.of target
      (((s.after before).step (.spawn target duty paused)).state.history after) := by
    have hStep := Supervisor.of_log_step (s.after before) target none
      (.spawn target duty paused) hOwn
    simp only [steps, Supervisor.history_append, Log.of_append, Supervisor.history, hLog, hStep,
      Supervisor.entries, List.nil_append]
  rw [← hHistory] at hEnd
  obtain ⟨hSchedule, hEntries⟩ := hEnd.tracks.schedule
    (by intro x hOpen; rw [hEnd.clock_eq]; exact hOpen.lt) hEnd.past
  have hLoop := Supervisor.loop?_of_own (o := some l) hEnd.own_eq
  rw [hEnd.clock_eq] at hEntries
  refine ⟨starts, ?_, hEntries, hSchedule.pairwise, ?_, l.paused, hEnd.flag_eq, ?_⟩
  · intro xs
    exact ⟨fun h => h.unique hSchedule, fun h => h ▸ hSchedule⟩
  · simp only [Supervisor.step, Supervisor.withLoop, steps, hLoop, hEnd.tracks.heartbeat_eq]
    rw [hEnd.clock_eq]
  · simp only [Supervisor.step, Supervisor.withLoop, steps, hLoop]

/-- A collector whose second cycle panics, registered paused and resumed after a hundred. -/
theorem cycles_on_schedule_resumed :
    let duty : Duty := ⟨5, fun n => if n = 1 then .panic else .failure⟩
    Log.of .node ((Supervisor.ofInterval 2000 false).history
        [.spawn .node duty true, .sleep 100, .resume .node, .sleep 6000]) =
      [⟨.start, 100⟩, ⟨.finish, 105⟩, ⟨.start, 2105⟩, ⟨.finish, 2110⟩] := by
  intro duty
  obtain ⟨starts, hStarts, hLog, _⟩ := cycles_on_schedule 2000 false []
    [.sleep 100, .resume .node, .sleep 6000] .node duty true (by decide) (by simp)
    (by simp [Step.Cancels])
  generalize hGate : Gate .node ([] ++ [.spawn .node duty true, .sleep 100, .resume .node,
    .sleep 6000]) = gate at hStarts
  have hOpen : ∀ x, 100 ≤ x → x < 6100 → gate x := by
    intro x hFrom hTo
    rw [← hGate]
    exact ⟨[.spawn .node duty true, .sleep 100, .resume .node], 6000, [], rfl, rfl, hFrom, hTo⟩
  have hShut : ∀ x, x < 100 → ¬ gate x := by
    intro x hLess hOpen
    rw [← hGate] at hOpen
    cases (@gate_iff .node [.spawn .node duty true] _ 100 x (Nat.zero_le x) hLess).mp hOpen
  have hCycles : Cycles gate 2000 duty 0 ([] ++ [100]) 2105 :=
    .next .none ⟨hOpen 100 (by decide) (by decide), by decide, fun y _ => hShut y⟩ (by decide)
  have hLast : Last gate duty 1 2105 [2105] :=
    .panicked ⟨hOpen 2105 (by decide) (by decide), by decide, by omega⟩ rfl
  have hSchedule := (hStarts [100, 2105]).mp ⟨[100], 2105, [2105], rfl, hCycles, hLast⟩
  rw [← hSchedule] at hLog
  exact hLog.trans (by decide)

end GatewayTelemetry.Polling
