import GatewayTelemetry.Proofs.Polling.Run
import Mathlib.Data.List.Induction

/-! # Cycles in progress

The log of a target tells when one of its cycles is in progress: its last entry is a start. The end
of that cycle is due one working time later. `told`: at every point of a run, cancelled or not, the
loop of the target agrees with the log about this.
-/

namespace GatewayTelemetry.Polling

/-- The start of the cycle in progress, as the log of a target tells. -/
def inProgress? (log : List LogEntry) : Option Nat :=
  log.getLast?.bind fun e => if e.mark = .start then some e.time else none

@[simp]
theorem inProgress?_append_start (log : List LogEntry) (x : Nat) :
    inProgress? (log ++ [⟨.start, x⟩]) = some x := by
  simp [inProgress?]

@[simp]
theorem inProgress?_append_finish (log : List LogEntry) (x : Nat) :
    inProgress? (log ++ [⟨.finish, x⟩]) = none := by
  simp [inProgress?]

def duty? (target : Target) (steps : List Step) : Option Duty :=
  steps.findSome? fun
    | .spawn t duty _ => if t = target then some duty else none
    | _ => none

def due? (target : Target) (steps : List Step) (log : List LogEntry) : Option Nat :=
  (duty? target steps).bind fun duty => (inProgress? log).map (· + duty.work)

namespace Loop

theorem busyUntil?_afterCycle (l : Loop) (interval : Nat) (cancelled : Bool) (time n : Nat) :
    busyUntil? { l with phase := l.afterCycle interval cancelled time, ended := n } = none := by
  unfold afterCycle busyUntil?
  dsimp only
  cases l.duty.outcome l.ended = .panic || cancelled <;> rfl

theorem advance_busy (interval : Nat) (cancelled : Bool) (now stop : Nat) (l : Loop)
    {log : List LogEntry} (h : l.busyUntil? = (inProgress? log).map (· + l.duty.work)) :
    (l.advance interval cancelled now stop).1.busyUntil? =
        (inProgress? (log ++ (l.advance interval cancelled now stop).2)).map (· + l.duty.work) ∧
      ∀ f, (l.advance interval cancelled now stop).1.busyUntil? = some f → stop ≤ f := by
  fun_induction Loop.advance interval cancelled now stop l generalizing log with
  | case1 l hPhase | case2 l _ hPhase | case4 l _ hPhase =>
    rw [List.append_nil, ← h]
    simp [busyUntil?, hPhase]
  | case3 l since hPhase _ _ time started l' log' =>
    rename_i hRun ih
    rw [hRun] at ih
    rw [List.append_cons]
    exact ih (by simp [busyUntil?, started])
  | case5 l finish hPhase _ l' log' hRun ih =>
    rw [hRun] at ih
    rw [List.append_cons]
    exact ih (by simp [busyUntil?_afterCycle])
  | case6 l finish hPhase hBusy =>
    refine ⟨by rwa [List.append_nil], ?_⟩
    simp only [busyUntil?, hPhase, Option.some.injEq]
    rintro f rfl
    exact Nat.not_lt.mp hBusy

theorem advance_cancelled (interval now stop : Nat) (l : Loop) :
    (l.advance interval true now stop).2 =
        ((l.busyUntil?.filter (· < stop)).map fun f => ⟨.finish, f⟩).toList ∧
      (l.advance interval true now stop).1.busyUntil? = l.busyUntil?.filter (stop ≤ ·) := by
  fun_induction Loop.advance interval true now stop l with
  | case1 l hPhase | case2 l _ hPhase => simp [busyUntil?, hPhase]
  | case3 _ _ _ hRunning => exact absurd rfl hRunning
  | case4 _ _ _ hRunning => exact absurd rfl hRunning
  | case5 l finish hPhase hOver l' log' hRun ih =>
    rw [hRun, busyUntil?_afterCycle] at ih
    have hLater : ¬ stop ≤ finish := Nat.not_le.mpr hOver
    simp_all [busyUntil?, Option.filter_some]
  | case6 l finish hPhase hBusy => simp_all [busyUntil?, Option.filter_some]

end Loop

def Step.brief : Step → Bool
  | spawn _ _ _ | sleep _ | shutdown => false
  | _ => true

namespace Supervisor

theorem busyUntil?_wake (now : Nat) (l : Loop) : (wake now l).busyUntil? = l.busyUntil? := by
  unfold wake
  split
  · rename_i hParked
    unfold isParked at hParked
    split at hParked
    · rename_i hPhase
      simp [Loop.busyUntil?, hPhase]
    · cases hParked
  · rfl

theorem duty_wake (now : Nat) (l : Loop) : (wake now l).duty = l.duty := by
  unfold wake
  split <;> rfl

def span (s : Supervisor) : Step → Nat
  | .sleep ms => ms
  | .shutdown => s.remaining
  | _ => 0

theorem step_clock (s : Supervisor) (a : Step) : (s.step a).state.clock = s.clock + s.span a := by
  cases a with
  | sleep ms | shutdown | cancel => rfl
  | cancelOuter =>
    simp only [step, cancel]
    split <;> rfl
  | _ => exact (step_settings s _ (by simp [Step.Cancels])).2.2.2

theorem follow_of_brief (s : Supervisor) (target : Target) {a : Step} (h : a.brief = true) :
    ∃ f : Loop → Loop, (∀ o, s.follow target o a = o.map f) ∧ (∀ o, s.entries o a = []) ∧
      s.span a = 0 ∧ ∀ l, (f l).duty = l.duty ∧ (f l).busyUntil? = l.busyUntil? := by
  have hSame : (∀ o, s.follow target o a = o) → (∀ o, s.entries o a = []) → s.span a = 0 →
      ∃ f : Loop → Loop, (∀ o, s.follow target o a = o.map f) ∧ (∀ o, s.entries o a = []) ∧
        s.span a = 0 ∧ ∀ l, (f l).duty = l.duty ∧ (f l).busyUntil? = l.busyUntil? := by
    intro hFollow hQuiet hSpan
    exact ⟨id, fun o => (hFollow o).trans Option.map_id_apply.symm, hQuiet, hSpan,
      fun _ => ⟨rfl, rfl⟩⟩
  cases a with
  | spawn | sleep | shutdown => cases h
  | pause t =>
    rcases eq_or_ne t target with rfl | hOther
    · exact ⟨fun l => { l with paused := true }, fun _ => if_pos rfl, fun _ => rfl, rfl,
        fun _ => ⟨rfl, rfl⟩⟩
    · exact hSame (fun _ => if_neg hOther) (fun _ => rfl) rfl
  | resume t =>
    rcases eq_or_ne t target with rfl | hOther
    · exact ⟨wake s.clock, fun _ => if_pos rfl, fun _ => rfl, rfl,
        fun l => ⟨duty_wake _ l, busyUntil?_wake _ l⟩⟩
    · exact hSame (fun _ => if_neg hOther) (fun _ => rfl) rfl
  | _ => exact hSame (fun _ => rfl) (fun _ => rfl) rfl

end Supervisor

theorem duty?_concat (target : Target) (steps : List Step) (a : Step) :
    duty? target (steps ++ [a]) = (duty? target steps).or (duty? target [a]) := by
  simp [duty?, List.findSome?_append]

/-- The loop of a target, and what the steps of a run and the log of the target tell of it. -/
structure Told (target : Target) (steps : List Step) (log : List LogEntry) (s : Supervisor)
    (o : Option Loop) : Prop where
  own_eq : s.own target = o.toList
  duty_eq : o.map (·.duty) = duty? target steps
  busy : ∀ l ∈ o, l.busyUntil? = (inProgress? log).map (· + l.duty.work)
  silent : o = none → log = []
  ahead : ∀ f, o.bind (·.busyUntil?) = some f → s.clock ≤ f

namespace Told

variable {target : Target} {steps : List Step} {log : List LogEntry} {s : Supervisor}
  {o : Option Loop}

theorem due_eq (h : Told target steps log s o) :
    due? target steps log = o.bind (·.busyUntil?) := by
  rw [due?, ← h.duty_eq]
  cases o with
  | none => rfl
  | some l => exact (h.busy l rfl).symm

theorem treat (h : Told target steps log s o) {a : Step} {f : Loop → Loop}
    {g : Loop → List LogEntry} (hFollow : s.follow target o a = o.map f)
    (hEntries : s.entries o a = o.elim [] g)
    (hDuty : duty? target (steps ++ [a]) = duty? target steps) (hKeeps : ∀ l, (f l).duty = l.duty)
    (hBusy : ∀ l ∈ o, (f l).busyUntil? = (inProgress? (log ++ g l)).map (· + l.duty.work))
    (hAhead : ∀ l ∈ o, ∀ x, (f l).busyUntil? = some x → s.clock + s.span a ≤ x) :
    Told target (steps ++ [a]) (log ++ Log.of target (s.step a).log) (s.step a).state
      (s.follow target o a) := by
  have hOwn := s.own_step target o a h.own_eq
  rw [s.of_log_step target o a h.own_eq, hEntries]
  refine ⟨hOwn, ?_, ?_, ?_, ?_⟩
  · rw [hDuty, ← h.duty_eq, hFollow]
    cases o with
    | none => rfl
    | some l => exact congrArg some (hKeeps l)
  · rw [hFollow]
    cases o with
    | none => exact nofun
    | some l =>
      rintro _ ⟨⟩
      rw [hKeeps]
      exact hBusy l rfl
  · rw [hFollow]
    cases o with
    | none => simpa using h.silent
    | some l => exact nofun
  · rw [hFollow, s.step_clock]
    cases o with
    | none => exact nofun
    | some l => exact hAhead l rfl

theorem instant (h : Told target steps log s o) {a : Step} {f : Loop → Loop}
    (hFollow : s.follow target o a = o.map f) (hQuiet : s.entries o a = [])
    (hSpan : s.span a = 0) (hDuty : duty? target (steps ++ [a]) = duty? target steps)
    (hKeeps : ∀ l, (f l).duty = l.duty) (hBusy : ∀ l, (f l).busyUntil? = l.busyUntil?) :
    Told target (steps ++ [a]) (log ++ Log.of target (s.step a).log) (s.step a).state
      (s.follow target o a) := by
  refine h.treat (g := fun _ => []) hFollow (by cases o <;> exact hQuiet) hDuty hKeeps ?_ ?_
  · intro l hl
    rw [hBusy, List.append_nil, h.busy l hl]
  · rintro l rfl x hx
    rw [hSpan]
    exact h.ahead x ((hBusy l).symm.trans hx)

theorem brief (h : Told target steps log s o) {a : Step} (hBrief : a.brief = true)
    (hDuty : duty? target (steps ++ [a]) = duty? target steps) :
    Told target (steps ++ [a]) (log ++ Log.of target (s.step a).log) (s.step a).state
      (s.follow target o a) := by
  obtain ⟨f, hFollow, hQuiet, hSpan, hKeeps⟩ := s.follow_of_brief target hBrief
  exact h.instant (hFollow o) (hQuiet o) hSpan hDuty (fun l => (hKeeps l).1) fun l => (hKeeps l).2

theorem run (h : Told target steps log s o) {a : Step} {cancelled : Bool} {stop : Nat}
    (hFollow : s.follow target o a =
      o.map fun l => (l.advance s.interval cancelled s.clock stop).1)
    (hEntries : s.entries o a =
      o.elim [] fun l => (l.advance s.interval cancelled s.clock stop).2)
    (hDuty : duty? target (steps ++ [a]) = duty? target steps) (hStop : s.clock + s.span a ≤ stop) :
    Told target (steps ++ [a]) (log ++ Log.of target (s.step a).log) (s.step a).state
      (s.follow target o a) := by
  refine h.treat hFollow hEntries hDuty (fun l => (l.advance_settings _ _ _ _).2.1) ?_ ?_
  · intro l hl
    exact (l.advance_busy _ _ _ _ (h.busy l hl)).1
  · intro l hl x hx
    exact Nat.le_trans hStop ((l.advance_busy _ _ _ _ (h.busy l hl)).2 x hx)

theorem spawn (h : Told target steps log s o) (t : Target) (duty : Duty) (paused : Bool) :
    Told target (steps ++ [.spawn t duty paused])
      (log ++ Log.of target (s.step (.spawn t duty paused)).log)
      (s.step (.spawn t duty paused)).state (s.follow target o (.spawn t duty paused)) := by
  by_cases hNew : t = target ∧ o = none
  · obtain ⟨rfl, rfl⟩ := hNew
    have hUnregistered : duty? t steps = none := h.duty_eq.symm
    have hOwn := s.own_step t none (.spawn t duty paused) h.own_eq
    rw [s.of_log_step t none _ h.own_eq, h.silent rfl]
    refine ⟨hOwn, ?_, ?_, ?_, ?_⟩
    · rw [duty?_concat, hUnregistered]
      simp [Supervisor.follow, Loop.fresh, duty?]
    · simp [Supervisor.follow, Supervisor.entries, Loop.fresh, Loop.busyUntil?, inProgress?]
    · simp [Supervisor.follow]
    · simp [Supervisor.follow, Loop.fresh, Loop.busyUntil?]
  · refine h.instant (f := id) ?_ rfl rfl ?_ (fun _ => rfl) (fun _ => rfl)
    · cases o with
      | none => simp_all [Supervisor.follow]
      | some l => simp [Supervisor.follow]
    · rw [duty?_concat, ← h.duty_eq]
      cases o with
      | none => simp_all [duty?]
      | some l => rfl

theorem step (h : Told target steps log s o) (a : Step) :
    Told target (steps ++ [a]) (log ++ Log.of target (s.step a).log) (s.step a).state
      (s.follow target o a) := by
  have hUnnamed : duty? target [a] = none → duty? target (steps ++ [a]) = duty? target steps := by
    intro hNone
    rw [duty?_concat, hNone, Option.or_none]
  cases a with
  | sleep ms => exact h.run rfl rfl (hUnnamed rfl) (Nat.le_refl _)
  | shutdown => exact h.run rfl rfl (hUnnamed rfl) (Nat.le_succ _)
  | spawn t duty paused => exact h.spawn t duty paused
  | _ => exact h.brief rfl (hUnnamed rfl)

end Told

theorem told (interval : Nat) (derived : Bool) (target : Target) (steps : List Step) :
    ∃ o, Told target steps (Log.of target ((Supervisor.ofInterval interval derived).history steps))
      ((Supervisor.ofInterval interval derived).after steps) o := by
  induction steps using List.reverseRecOn with
  | nil =>
    refine ⟨none, rfl, rfl, nofun, fun _ => rfl, nofun⟩
  | append_singleton past a ih =>
    obtain ⟨o, h⟩ := ih
    refine ⟨((Supervisor.ofInterval interval derived).after past).follow target o a, ?_⟩
    rw [Supervisor.history_append, Supervisor.after_append, Log.of_append]
    simpa [Supervisor.history] using h.step a

end GatewayTelemetry.Polling
