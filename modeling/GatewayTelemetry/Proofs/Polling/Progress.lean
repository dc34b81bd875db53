import GatewayTelemetry.Proofs.Polling.Schedule

/-! # A loop in step with its schedule

`Fits` relates the phase of a loop to the cycles begun so far and to what they logged. It speaks of
the gate of the whole run, so a sleep (`Tracks.advance`) and a resume (`Tracks.wake`) keep it without
looking back; `Stands` carries it through the steps of a run.
-/

namespace GatewayTelemetry.Polling

variable {gate : Nat → Prop} {interval origin now : Nat} {duty : Duty}

def Duty.cycle (duty : Duty) (x : Nat) : List LogEntry := [⟨.start, x⟩, ⟨.finish, x + duty.work⟩]

/-- A phase that fits the cycles begun by `now`, of which so many are over. A resting loop that a
resume has woken is due at the resume, and no earlier instant since its due time had an open gate. -/
inductive Fits (gate : Nat → Prop) (interval : Nat) (duty : Duty) (origin now : Nat) :
    Phase → Nat → List Nat → List LogEntry → Prop where
  | resting {starts : List Nat} {due since : Nat} :
      Cycles gate interval duty origin starts due → (∀ x, due ≤ x → x < now → ¬ gate x) →
      (since = due ∨ due ≤ since ∧ since ≤ now) →
      Fits gate interval duty origin now (.resting since) starts.length starts
        (starts.flatMap duty.cycle)
  | working {starts : List Nat} {due x : Nat} :
      Cycles gate interval duty origin starts due → Earliest gate due x → now ≤ x + duty.work →
      Fits gate interval duty origin now (.working (x + duty.work)) starts.length (starts ++ [x])
        (starts.flatMap duty.cycle ++ [⟨.start, x⟩])
  | stopped {starts : List Nat} {due x : Nat} :
      Cycles gate interval duty origin starts due → Earliest gate due x →
      duty.outcome starts.length = .panic →
      Fits gate interval duty origin now .stopped (starts.length + 1) (starts ++ [x])
        ((starts ++ [x]).flatMap duty.cycle)

structure Tracks (gate : Nat → Prop) (interval : Nat) (duty : Duty) (origin now : Nat) (l : Loop)
    (starts : List Nat) (log : List LogEntry) : Prop where
  duty_eq : l.duty = duty
  heartbeat_eq : l.heartbeat = starts.getLast?
  fits : Fits gate interval duty origin now l.phase l.ended starts log

theorem Duty.rest_eq (d : Duty) (h : 0 < interval) : d.rest interval = interval := by
  unfold Duty.rest
  split
  · exact Nat.max_eq_left h
  · rfl

theorem Earliest.of_fits {due since stop : Nat} {paused : Bool}
    (hClosed : ∀ x, due ≤ x → x < now → ¬ gate x) (hSince : since = due ∨ due ≤ since ∧ since ≤ now)
    (hGate : ∀ x, now ≤ x → x < stop → (gate x ↔ paused = false)) (hFree : paused = false)
    (hBefore : max since now < stop) : Earliest gate due (max since now) := by
  refine ⟨(hGate _ (Nat.le_max_right _ _) hBefore).mpr hFree, by omega, ?_⟩
  intro y hDue hLess
  -- An instant before `now` is closed; from `now` on only the due time itself can have moved.
  by_cases hPast : y < now
  · exact hClosed y hDue hPast
  · omega

theorem Tracks.advance (hInterval : 0 < interval) {stop : Nat} (hStop : now ≤ stop) {l : Loop}
    {starts : List Nat} {log : List LogEntry}
    (h : Tracks gate interval duty origin now l starts log)
    (hGate : ∀ x, now ≤ x → x < stop → (gate x ↔ l.paused = false)) :
    (l.advance interval false now stop).1.paused = l.paused ∧
      ∃ starts', Tracks gate interval duty origin stop (l.advance interval false now stop).1 starts'
        (log ++ (l.advance interval false now stop).2) := by
  obtain ⟨hDuty, hBeat, hFits⟩ := h
  -- One turn of the loop starts a cycle, ends one, or is the last before `stop`.
  fun_induction Loop.advance interval false now stop l generalizing starts log with
  | case1 l hPhase =>
    rw [hPhase] at hFits
    generalize hEnded : l.ended = n at hFits
    cases hFits with
    | stopped hCycles hFirst hPanic =>
      refine ⟨rfl, _, hDuty, hBeat, ?_⟩
      rw [hPhase, hEnded, List.append_nil]
      exact .stopped hCycles hFirst hPanic
  | case2 => contradiction
  | case3 l since hPhase _ hFree time started l' log' =>
    rename_i hRun ih
    rw [hPhase] at hFits
    generalize hEnded : l.ended = n at hFits
    cases hFits with
    | @resting starts due _ hCycles hClosed hSince =>
      have hFirst : Earliest gate due time := .of_fits hClosed hSince hGate hFree.1 hFree.2
      rw [hRun] at ih
      have hNow : now ≤ time + duty.work :=
        Nat.le_trans (Nat.le_max_right _ _) (Nat.le_add_right _ _)
      have hFits' : Fits gate interval duty origin now started.phase started.ended
          (starts ++ [time]) (starts.flatMap duty.cycle ++ [⟨.start, time⟩]) := by
        have hWorking := Fits.working hCycles hFirst hNow
        simpa [started, hDuty, hEnded] using hWorking
      obtain ⟨hPaused, starts', hTracks⟩ := ih hGate hDuty (by simp [started]) hFits'
      refine ⟨hPaused, starts', ?_⟩
      rwa [List.append_assoc] at hTracks
  | case4 l since hPhase _ hBlocked =>
    rw [hPhase] at hFits
    generalize hEnded : l.ended = n at hFits
    cases hFits with
    | @resting _ due _ hCycles hClosed hSince =>
      refine ⟨rfl, starts, hDuty, hBeat, ?_⟩
      rw [hPhase, hEnded, List.append_nil]
      refine .resting hCycles ?_ (by omega)
      intro x hDue hLess hOpen
      by_cases hPast : x < now
      · exact hClosed x hDue hPast hOpen
      · have hFree := (hGate x (by omega) hLess).mp hOpen
        exact hBlocked ⟨hFree, by omega⟩
  | case5 l finish hPhase hOver l' log' =>
    rename_i hRun ih
    rw [hPhase] at hFits
    generalize hEnded : l.ended = n at hFits
    cases hFits with
    | @working starts due x hCycles hFirst hNow =>
      rw [hRun] at ih
      have hFits' : Fits gate interval duty origin now (l.afterCycle interval false (x + duty.work))
          (l.ended + 1) (starts ++ [x]) ((starts ++ [x]).flatMap duty.cycle) := by
        unfold Loop.afterCycle
        rw [hDuty, hEnded]
        by_cases hPanic : duty.outcome starts.length = .panic
        · simpa [hPanic] using Fits.stopped hCycles hFirst hPanic
        · have hCycles' := Cycles.next hCycles hFirst hPanic
          have hLength : starts.length + 1 = (starts ++ [x]).length := by simp
          simp only [hPanic, Bool.or_false, decide_false, Bool.false_eq_true, if_false, hLength,
            Duty.rest_eq duty hInterval]
          exact .resting hCycles' (by intro y hDue hLess; omega) (.inl rfl)
      obtain ⟨hPaused, starts', hTracks⟩ := ih hGate hDuty hBeat hFits'
      refine ⟨hPaused, starts', ?_⟩
      simpa [Duty.cycle] using hTracks
  | case6 l finish hPhase hBusy =>
    rw [hPhase] at hFits
    generalize hEnded : l.ended = n at hFits
    cases hFits with
    | working hCycles hFirst hNow =>
      refine ⟨rfl, _, hDuty, hBeat, ?_⟩
      rw [hPhase, hEnded, List.append_nil]
      exact .working hCycles hFirst (Nat.not_lt.mp hBusy)

theorem Tracks.wake {l : Loop} {starts : List Nat} {log : List LogEntry}
    (h : Tracks gate interval duty origin now l starts log) :
    Tracks gate interval duty origin now (Supervisor.wake now l) starts log := by
  obtain ⟨hDuty, hBeat, hFits⟩ := h
  unfold Supervisor.wake
  split
  · rename_i hParked
    refine ⟨hDuty, hBeat, ?_⟩
    unfold Supervisor.isParked at hParked
    split at hParked
    · rename_i since hPhase
      rw [hPhase] at hFits
      have hSlept : since < now := by simpa using (Bool.and_eq_true_iff.mp hParked).2
      generalize hEnded : l.ended = n at hFits
      cases hFits with
      | @resting _ due _ hCycles hClosed hSince =>
        rw [← hEnded]
        have hWoken : Fits gate interval duty origin now (.resting now) starts.length starts
            (starts.flatMap duty.cycle) := .resting hCycles hClosed (.inr (by omega))
        simpa [hEnded] using hWoken
    · cases hParked
  · exact ⟨hDuty, hBeat, hFits⟩

/-- The loop of a target registered at `origin`, once the steps `done` of a run have been made. -/
structure Stands (target : Target) (interval : Nat) (duty : Duty) (origin : Nat)
    (steps done : List Step) (s : Supervisor) (l : Loop) (starts : List Nat)
    (log : List LogEntry) : Prop where
  interval_eq : s.interval = interval
  running : s.cancelled = false
  clock_eq : s.clock = elapsed done
  own_eq : s.own target = [l]
  flag_eq : flag? target done = some l.paused
  tracks : Tracks (Gate target steps) interval duty origin s.clock l starts log
  past : ∀ e ∈ log, e.time < s.clock

section

variable {target : Target} {steps done rest : List Step} {s : Supervisor} {l : Loop}
  {starts : List Nat} {log : List LogEntry} {a : Step}

theorem Stands.sleep (hInterval : 0 < interval) {ms : Nat}
    (h : Stands target interval duty origin (done ++ .sleep ms :: rest) done s l starts log) :
    ∃ l' starts', Stands target interval duty origin (done ++ .sleep ms :: rest)
      (done ++ [.sleep ms]) (s.step (.sleep ms)).state l' starts'
      (log ++ Log.of target (s.step (.sleep ms)).log) := by
  have hGate : ∀ x, s.clock ≤ x → x < s.clock + ms →
      (Gate target (done ++ .sleep ms :: rest) x ↔ l.paused = false) := by
    intro x hFrom hTo
    rw [h.clock_eq] at hFrom hTo
    rw [gate_iff hFrom hTo, h.flag_eq, Option.some.injEq]
  obtain ⟨hPaused, starts', hTracks⟩ := h.tracks.advance hInterval (Nat.le_add_right _ ms) hGate
  have hOwn := Supervisor.own_step s target (some l) (.sleep ms) h.own_eq
  have hLog := Supervisor.of_log_step s target (some l) (.sleep ms) h.own_eq
  simp only [Supervisor.follow, Supervisor.entries, Option.map_some, Option.elim_some,
    h.interval_eq, h.running] at hOwn hLog
  refine ⟨(l.advance interval false s.clock (s.clock + ms)).1, starts', ?_⟩
  exact
    { interval_eq := h.interval_eq
      running := h.running
      clock_eq := by
        rw [elapsed_append, elapsed_cons, ← h.clock_eq]
        rfl
      own_eq := hOwn
      flag_eq := by
        rw [flag?_append, hPaused]
        exact h.flag_eq
      tracks := by
        rw [hLog]
        exact hTracks
      past := by
        intro e he
        rcases List.mem_append.mp he with he | he
        · exact Nat.lt_of_lt_of_le (h.past e he) (Nat.le_add_right _ ms)
        · rw [hLog] at he
          exact (Loop.advance_time interval false s.clock (s.clock + ms) l e he).1 }

theorem Stands.instant (h : Stands target interval duty origin steps done s l starts log)
    (hCancels : ¬ a.Cancels s.derived) (hLength : a.length = 0) (hQuiet : ∀ o, s.entries o a = [])
    {l' : Loop} (hFollow : s.follow target (some l) a = some l')
    (hFlag : flagAfter target (some l.paused) a = some l'.paused)
    (hTracks : Tracks (Gate target steps) interval duty origin s.clock l' starts log) :
    Stands target interval duty origin steps (done ++ [a]) (s.step a).state l' starts
      (log ++ Log.of target (s.step a).log) := by
  obtain ⟨hInterval, _, hCancelled, hClock⟩ := Supervisor.step_settings s a hCancels
  have hOwn := Supervisor.own_step s target (some l) a h.own_eq
  have hLog := Supervisor.of_log_step s target (some l) a h.own_eq
  rw [hLength, Nat.add_zero] at hClock
  rw [hLog, hQuiet, List.append_nil]
  exact
    { interval_eq := hInterval.trans h.interval_eq
      running := hCancelled.trans h.running
      clock_eq := by simp [hClock, h.clock_eq, hLength, elapsed]
      own_eq := by rw [hOwn, hFollow, Option.toList_some]
      flag_eq := by rw [flag?_append, h.flag_eq, hFlag]
      tracks := by rwa [hClock]
      past := by rw [hClock]; exact h.past }

theorem Stands.step (hInterval : 0 < interval)
    (h : Stands target interval duty origin (done ++ a :: rest) done s l starts log)
    (hCancels : ¬ a.Cancels s.derived) :
    ∃ l' starts', Stands target interval duty origin (done ++ a :: rest) (done ++ [a])
      (s.step a).state l' starts' (log ++ Log.of target (s.step a).log) := by
  have hTracks := h.tracks
  cases a with
  | sleep ms => exact h.sleep hInterval
  | cancel | shutdown => exact absurd trivial hCancels
  | spawn t duty paused =>
    refine ⟨l, starts, h.instant hCancels rfl (fun _ => rfl) ?_ ?_ hTracks⟩
    · simp [Supervisor.follow]
    · simp [flagAfter]
  | pause t =>
    by_cases ht : t = target
    · exact ⟨{ l with paused := true }, starts, h.instant hCancels rfl (fun _ => rfl)
        (by simp [Supervisor.follow, ht]) (by simp [flagAfter, ht])
        ⟨hTracks.duty_eq, hTracks.heartbeat_eq, hTracks.fits⟩⟩
    · exact ⟨l, starts, h.instant hCancels rfl (fun _ => rfl)
        (by simp [Supervisor.follow, ht]) (by simp [flagAfter, ht]) hTracks⟩
  | resume t =>
    by_cases ht : t = target
    · have hFlag := Supervisor.wake_paused s.clock l
      exact ⟨Supervisor.wake s.clock l, starts, h.instant hCancels rfl (fun _ => rfl)
        (by simp [Supervisor.follow, ht]) (by simp [flagAfter, ht, hFlag]) hTracks.wake⟩
    · exact ⟨l, starts, h.instant hCancels rfl (fun _ => rfl)
        (by simp [Supervisor.follow, ht]) (by simp [flagAfter, ht]) hTracks⟩
  | isPaused t | pausingDuration t | lastHeartbeat t | interval | cancelOuter =>
    exact ⟨l, starts, h.instant hCancels rfl (fun _ => rfl) rfl rfl hTracks⟩

theorem Stands.run (hInterval : 0 < interval) (rest done : List Step) {s : Supervisor} {l : Loop}
    {starts : List Nat} {log : List LogEntry}
    (h : Stands target interval duty origin (done ++ rest) done s l starts log)
    (hCancels : ∀ a ∈ rest, ¬ a.Cancels s.derived) :
    ∃ l' starts', Stands target interval duty origin (done ++ rest) (done ++ rest)
      (s.after rest) l' starts' (log ++ Log.of target (s.history rest)) := by
  induction rest generalizing done s l starts log with
  | nil =>
    rw [Supervisor.after_nil, Supervisor.history, Log.of_nil, List.append_nil]
    rw [List.append_nil] at h ⊢
    exact ⟨l, starts, h⟩
  | cons a rest ih =>
    obtain ⟨hFirst, hRest⟩ := List.forall_mem_cons.mp hCancels
    obtain ⟨l', starts', hStep⟩ := h.step hInterval hFirst
    have hDerived := (Supervisor.step_settings s a hFirst).2.1
    rw [List.append_cons] at hStep ⊢
    obtain ⟨l'', starts'', hRun⟩ := ih (done ++ [a]) hStep (by rwa [hDerived])
    refine ⟨l'', starts'', ?_⟩
    rwa [Supervisor.after_cons, Supervisor.history, Log.of_append, ← List.append_assoc]

end

end GatewayTelemetry.Polling
