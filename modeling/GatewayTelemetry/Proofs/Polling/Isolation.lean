import GatewayTelemetry.Proofs.Polling.Cancellation
import GatewayTelemetry.Proofs.Polling.Schedule

/-! # One target without the other

Drop from a run what manages the other target: the steps that are left treat the loop of this target
as the whole run does (`isolated`). The two runs stay abreast until a shutdown. That may take longer
with the other loop than without it, but it leaves every loop idle for good.
-/

namespace GatewayTelemetry.Polling

def Step.managed? : Step → Option Target
  | .spawn t _ _ | .pause t | .resume t => some t
  | _ => none

/-- The steps of a run without those that manage another target. -/
def alone (target : Target) (steps : List Step) : List Step :=
  steps.filter fun a => a.managed?.all (· == target)

namespace Supervisor

def answersTo (s : Supervisor) (target : Target) : List Step → List (Except AgentError Answer)
  | [] => []
  | a :: rest =>
    (if a.managed? = some target then [(s.step a).answer] else []) ++
      (s.step a).state.answersTo target rest

variable {s s' : Supervisor} {target : Target} {o o' : Option Loop}

theorem follow_paused (s : Supervisor) (target : Target) (o : Option Loop) (a : Step) :
    (s.follow target o a).map (·.paused) = flagAfter target (o.map (·.paused)) a := by
  cases a with
  | spawn t duty paused | pause t =>
    simp only [follow, flagAfter]
    split <;> cases o <;> rfl
  | resume t =>
    simp only [follow, flagAfter]
    split
    · cases o with
      | none => rfl
      | some l => exact congrArg some (wake_paused s.clock l)
    · rfl
  | sleep ms | shutdown =>
    cases o with
    | none => rfl
    | some l => exact congrArg some (l.advance_settings _ _ _ _).2.2
  | _ => rfl

theorem shutdown_idles (hOwn : s.own target = o.toList) :
    s.entries o .shutdown = ((o.bind (·.busyUntil?)).map fun x => ⟨.finish, x⟩).toList ∧
      (s.follow target o .shutdown).bind (·.busyUntil?) = none := by
  cases o with
  | none => exact ⟨rfl, rfl⟩
  | some l =>
    have hRun := l.advance_cancelled s.interval s.clock (s.clock + s.remaining + 1)
    simp only [entries, follow, Option.elim_some, Option.map_some, Option.bind_some, hRun.1, hRun.2]
    cases hBusy : l.busyUntil? with
    | none => exact ⟨rfl, rfl⟩
    | some x =>
      have hBefore : x < s.clock + s.remaining + 1 :=
        Nat.lt_succ_of_le (due_le_remaining hOwn hBusy)
      simp only [Option.filter_some, hBefore, Nat.not_le.mpr hBefore, decide_true, decide_false,
        Bool.false_eq_true, if_true, if_false, Option.map_some, and_self]

theorem idle_of_cancelled (target : Target) (hCancelled : s.cancelled = true)
    (hIdle : o.bind (·.busyUntil?) = none) (a : Step) :
    s.entries o a = [] ∧ (s.follow target o a).bind (·.busyUntil?) = none := by
  have hStep := of_cancelled target hCancelled (o := o) (by rw [hIdle]; exact nofun) a
  rwa [hIdle] at hStep

theorem step_congr {a : Step} (hShutdown : a ≠ .shutdown) (hClock : s'.clock = s.clock)
    (hInterval : s'.interval = s.interval) (hCancelled : s'.cancelled = s.cancelled)
    (target : Target) (o : Option Loop) :
    s'.follow target o a = s.follow target o a ∧ s'.entries o a = s.entries o a ∧
      (s'.step a).state.clock = (s.step a).state.clock := by
  rw [step_clock, step_clock, hClock]
  cases a with
  | shutdown => exact absurd rfl hShutdown
  | _ => simp [follow, entries, span, hClock, hInterval, hCancelled]

theorem answer_of_managed {a : Step} (hManaged : a.managed? = some target)
    (hSame : (s.loop? target).isSome = (s'.loop? target).isSome) :
    (s.step a).answer = (s'.step a).answer := by
  cases a with
  | spawn t duty paused | pause t | resume t =>
    cases hManaged
    cases hLoop : s.loop? target <;> cases hLoop' : s'.loop? target <;>
      simp_all [step, spawn, withLoop]
  | _ => cases hManaged

theorem isPaused_answer (hSame : (s.loop? target).map (·.paused) = (s'.loop? target).map (·.paused)) :
    (s.step (.isPaused target)).answer = (s'.step (.isPaused target)).answer := by
  cases hLoop : s.loop? target <;> cases hLoop' : s'.loop? target <;>
    simp_all [step, withLoop]

/-- A run and the same run without the other target, seen from this target. -/
structure Alike (target : Target) (s s' : Supervisor) (o o' : Option Loop) : Prop where
  own_eq : s.own target = o.toList
  own_eq' : s'.own target = o'.toList
  interval_eq : s'.interval = s.interval
  derived_eq : s'.derived = s.derived
  cancelled_eq : s'.cancelled = s.cancelled
  paused_eq : o'.map (·.paused) = o.map (·.paused)
  loops : s'.clock = s.clock ∧ o' = o ∨
    s.cancelled = true ∧ o.bind (·.busyUntil?) = none ∧ o'.bind (·.busyUntil?) = none

namespace Alike

theorem other (h : Alike target s s' o o') {a : Step} {t : Target} (hManaged : a.managed? = some t)
    (hOther : t ≠ target) : Alike target (s.step a).state s' o o' ∧ s.entries o a = [] := by
  have hStays : s.follow target o a = o ∧ ¬ a.Cancels s.derived ∧ a.length = 0 ∧
      s.entries o a = [] := by
    cases a with
    | spawn | pause | resume =>
      cases hManaged
      exact ⟨if_neg hOther, not_false, rfl, rfl⟩
    | _ => cases hManaged
  obtain ⟨hFollow, hCancels, hLength, hQuiet⟩ := hStays
  obtain ⟨hInterval, hDerived, hCancelled, hClock⟩ := s.step_settings a hCancels
  have hOwn := s.own_step target o a h.own_eq
  rw [hFollow] at hOwn
  rw [hLength, Nat.add_zero] at hClock
  refine ⟨⟨hOwn, h.own_eq', ?_, ?_, ?_, h.paused_eq, ?_⟩, hQuiet⟩
  · rw [hInterval, h.interval_eq]
  · rw [hDerived, h.derived_eq]
  · rw [hCancelled, h.cancelled_eq]
  · rw [hClock, hCancelled]
    exact h.loops

theorem both (h : Alike target s s' o o') (a : Step) :
    Alike target (s.step a).state (s'.step a).state (s.follow target o a) (s'.follow target o' a) ∧
      s'.entries o' a = s.entries o a := by
  have hAlike (hLoops : (s'.step a).state.clock = (s.step a).state.clock ∧
        s'.follow target o' a = s.follow target o a ∨ (s.step a).state.cancelled = true ∧
        (s.follow target o a).bind (·.busyUntil?) = none ∧
        (s'.follow target o' a).bind (·.busyUntil?) = none) :
      Alike target (s.step a).state (s'.step a).state (s.follow target o a)
        (s'.follow target o' a) :=
    { own_eq := s.own_step target o a h.own_eq
      own_eq' := s'.own_step target o' a h.own_eq'
      interval_eq := by rw [(s'.step_fixed a).1, (s.step_fixed a).1, h.interval_eq]
      derived_eq := by rw [(s'.step_fixed a).2, (s.step_fixed a).2, h.derived_eq]
      cancelled_eq := by
        rw [Bool.eq_iff_iff, step_cancelled_iff, step_cancelled_iff, h.cancelled_eq, h.derived_eq]
      paused_eq := by rw [follow_paused, follow_paused, h.paused_eq]
      loops := hLoops }
  rcases h.loops with ⟨hClock, rfl⟩ | ⟨hCancelled, hIdle, hIdle'⟩
  · by_cases hShutdown : a = .shutdown
    · subst hShutdown
      obtain ⟨hEntries, hEnded⟩ := shutdown_idles h.own_eq
      obtain ⟨hEntries', hEnded'⟩ := shutdown_idles h.own_eq'
      exact ⟨hAlike (.inr ⟨rfl, hEnded, hEnded'⟩), hEntries'.trans hEntries.symm⟩
    · obtain ⟨hFollow, hEntries, hClock'⟩ :=
        step_congr hShutdown hClock h.interval_eq h.cancelled_eq target o'
      exact ⟨hAlike (.inl ⟨hClock', hFollow⟩), hEntries⟩
  · -- No cycle is in progress in either run, and none will start.
    obtain ⟨hQuiet, hStill⟩ := idle_of_cancelled target hCancelled hIdle a
    obtain ⟨hQuiet', hStill'⟩ :=
      idle_of_cancelled target (h.cancelled_eq.trans hCancelled) hIdle' a
    exact ⟨hAlike (.inr ⟨step_cancelled hCancelled a, hStill, hStill'⟩), hQuiet'.trans hQuiet.symm⟩

theorem loop?_isSome (h : Alike target s s' o o') :
    (s'.loop? target).isSome = (s.loop? target).isSome := by
  have hPaused := congrArg Option.isSome h.paused_eq
  rwa [Option.isSome_map, Option.isSome_map, ← loop?_of_own h.own_eq,
    ← loop?_of_own h.own_eq'] at hPaused

theorem run (h : Alike target s s' o o') (steps : List Step) :
    Log.of target (s'.history (alone target steps)) = Log.of target (s.history steps) ∧
      s'.answersTo target (alone target steps) = s.answersTo target steps ∧
      ∃ l l', Alike target (s.after steps) (s'.after (alone target steps)) l l' := by
  induction steps generalizing s s' o o' with
  | nil => exact ⟨rfl, rfl, o, o', h⟩
  | cons a rest ih =>
    have hLog := s.of_log_step target o a h.own_eq
    cases hKept : a.managed?.all (· == target) with
    | true =>
      have hLeft : alone target (a :: rest) = a :: alone target rest := List.filter_cons_of_pos hKept
      obtain ⟨hAlike, hEntries⟩ := h.both a
      obtain ⟨hRest, hAnswers, hEnd⟩ := ih hAlike
      have hLog' := s'.of_log_step target o' a h.own_eq'
      rw [hLeft]
      refine ⟨?_, ?_, hEnd⟩
      · rw [history, history, Log.of_append, Log.of_append, hLog, hLog', hEntries, hRest]
      · rw [answersTo, answersTo, hAnswers]
        congr 1
        split
        · rename_i hManaged
          rw [answer_of_managed hManaged h.loop?_isSome]
        · rfl
    | false =>
      have hLeft : alone target (a :: rest) = alone target rest :=
        List.filter_cons_of_neg (by simp [hKept])
      obtain ⟨t, hManaged, hOther⟩ : ∃ t, a.managed? = some t ∧ t ≠ target := by
        cases hManaged : a.managed? <;> simp_all
      obtain ⟨hAlike, hQuiet⟩ := h.other hManaged hOther
      obtain ⟨hRest, hAnswers, hEnd⟩ := ih hAlike
      have hElse : a.managed? ≠ some target := by simp [hManaged, hOther]
      rw [hLeft, history, Log.of_append, hLog, hQuiet, answersTo, if_neg hElse]
      exact ⟨hRest, hAnswers, hEnd⟩

end Alike

end Supervisor

/-- What else manages the other target, and whatever its collector does, changes neither the log of a
target nor its pause flag nor what its own steps are answered. -/
theorem isolated (interval : Nat) (derived : Bool) (target : Target) (steps : List Step) :
    let s := Supervisor.ofInterval interval derived
    Log.of target (s.history (alone target steps)) = Log.of target (s.history steps) ∧
      ((s.after (alone target steps)).step (.isPaused target)).answer =
        ((s.after steps).step (.isPaused target)).answer ∧
      s.answersTo target (alone target steps) = s.answersTo target steps := by
  intro s
  have hStart : Supervisor.Alike target s s none none :=
    ⟨rfl, rfl, rfl, rfl, rfl, rfl, .inl ⟨rfl, rfl⟩⟩
  obtain ⟨hLog, hAnswers, l, l', hEnd⟩ := hStart.run steps
  refine ⟨hLog, Supervisor.isPaused_answer ?_, hAnswers⟩
  rw [Supervisor.loop?_of_own hEnd.own_eq, Supervisor.loop?_of_own hEnd.own_eq']
  exact hEnd.paused_eq

end GatewayTelemetry.Polling
