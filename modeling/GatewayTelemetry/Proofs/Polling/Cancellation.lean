import GatewayTelemetry.Proofs.Polling.InProgress

/-! # What a cancellation leaves of a run

From a cancellation on, all that a loop still logs is the end of its cycle in progress, at the
instant at which it is due (`wind_up`). A shutdown waits for the last of these ends.
-/

namespace GatewayTelemetry.Polling

/-- All that a cancelled loop still logs: the end of the cycle in progress, once it is due. -/
inductive WindUp (due : Option Nat) (passed : Nat → Prop) : List LogEntry → Prop where
  | ended {x : Nat} : due = some x → passed x → WindUp due passed [⟨.finish, x⟩]
  | quiet : (∀ x, due = some x → ¬ passed x) → WindUp due passed []

theorem WindUp.eq_ended {due : Option Nat} {passed : Nat → Prop} {log : List LogEntry} {x : Nat}
    (h : WindUp due passed log) (hDue : due = some x) (hPassed : passed x) : log = [⟨.finish, x⟩] := by
  cases h with
  | ended hDue' _ =>
    cases hDue.symm.trans hDue'
    rfl
  | quiet hOpen => exact absurd hPassed (hOpen x hDue)

theorem WindUp.eq_nil {passed : Nat → Prop} {log : List LogEntry} (h : WindUp none passed log) :
    log = [] := by
  cases h with
  | ended hDue _ => cases hDue
  | quiet _ => rfl

theorem WindUp.cons {due : Option Nat} {stop : Nat} {here later passed : Nat → Prop}
    {log : List LogEntry} (hHere : ∀ x, due = some x → (x < stop ↔ here x))
    (hPassed : ∀ x, passed x ↔ here x ∨ later x) (h : WindUp (due.filter (stop ≤ ·)) later log) :
    WindUp due passed (((due.filter (· < stop)).map fun x => ⟨.finish, x⟩).toList ++ log) := by
  cases due with
  | none =>
    rw [h.eq_nil]
    exact .quiet nofun
  | some x =>
    rw [Option.filter_some] at h ⊢
    by_cases hBefore : x < stop
    · rw [if_neg (by simpa using hBefore)] at h
      rw [if_pos (by simpa using hBefore), h.eq_nil]
      exact .ended rfl ((hPassed x).mpr (.inl ((hHere x rfl).mp hBefore)))
    · have hLater : passed x ↔ later x := by rw [hPassed, ← hHere x rfl, or_iff_right hBefore]
      rw [if_pos (by simpa using hBefore)] at h
      rw [if_neg (by simpa using hBefore)]
      cases h with
      | ended hDue hEnd =>
        cases hDue
        exact .ended rfl (hLater.mpr hEnd)
      | quiet hOpen =>
        refine .quiet ?_
        rintro _ ⟨⟩
        exact fun hEnd => hOpen x rfl (hLater.mp hEnd)

namespace Supervisor

def Passes (s : Supervisor) (steps : List Step) (x : Nat) : Prop :=
  x < (s.after steps).clock ∨ .shutdown ∈ steps

theorem clock_le_after (s : Supervisor) (steps : List Step) :
    s.clock ≤ (s.after steps).clock := by
  induction steps generalizing s with
  | nil => exact Nat.le_refl _
  | cons a rest ih =>
    have hClock := s.step_clock a
    exact Nat.le_trans (hClock ▸ Nat.le_add_right _ _) (ih _)

theorem passes_cons (s : Supervisor) (a : Step) (rest : List Step) (x : Nat) :
    s.Passes (a :: rest) x ↔ s.Passes [a] x ∨ (s.step a).state.Passes rest x := by
  have hMono := clock_le_after (s.step a).state rest
  unfold Passes
  rw [after_cons, after_cons, after_nil, List.mem_cons, List.mem_singleton]
  constructor
  · tauto
  · rintro ((hLess | hHere) | (hLess | hLater))
    · exact .inl (Nat.lt_of_lt_of_le hLess hMono)
    · exact .inr (.inl hHere)
    · exact .inl hLess
    · exact .inr (.inr hLater)

theorem foldl_max_le_iff {α : Type} (g : α → Nat) (as : List α) (m n : Nat) :
    as.foldl (fun n a => max n (g a)) m ≤ n ↔ m ≤ n ∧ ∀ a ∈ as, g a ≤ n := by
  induction as generalizing m with
  | nil => simp
  | cons a rest ih => rw [List.foldl_cons, ih, Nat.max_le, List.forall_mem_cons, and_assoc]

theorem remaining_le_iff (s : Supervisor) (n : Nat) :
    s.remaining ≤ n ↔ ∀ l ∈ s.loops, (l.busyUntil?.map (· - s.clock)).getD 0 ≤ n := by
  simp [remaining, foldl_max_le_iff]

theorem mem_loops_iff {s : Supervisor} {l : Loop} : l ∈ s.loops ↔ ∃ target, l ∈ s.own target := by
  simp [own]

theorem busy_le_remaining {s : Supervisor} {l : Loop} (h : l ∈ s.loops) {x : Nat}
    (hBusy : l.busyUntil? = some x) : x ≤ s.clock + s.remaining := by
  have hLeft := (s.remaining_le_iff s.remaining).mp (Nat.le_refl _) l h
  rw [hBusy, Option.map_some, Option.getD_some] at hLeft
  omega

theorem due_le_remaining {s : Supervisor} {target : Target} {o : Option Loop}
    (hOwn : s.own target = o.toList) {x : Nat} (hBusy : o.bind (·.busyUntil?) = some x) :
    x ≤ s.clock + s.remaining := by
  obtain ⟨l, rfl, hBusy⟩ := Option.bind_eq_some_iff.mp hBusy
  exact busy_le_remaining (mem_loops_iff.mpr ⟨target, by simp [hOwn]⟩) hBusy

def left (s : Supervisor) (due : Option Nat) : Nat := (due.map (· - s.clock)).getD 0

theorem remaining_eq {s : Supervisor} {o : Target → Option Loop}
    (h : ∀ target, s.own target = (o target).toList) :
    s.remaining = max (s.left ((o .node).bind (·.busyUntil?)))
      (s.left ((o .multiCluster).bind (·.busyUntil?))) := by
  have hOwn : ∀ target n, (∀ l ∈ s.own target, (l.busyUntil?.map (· - s.clock)).getD 0 ≤ n) ↔
      s.left ((o target).bind (·.busyUntil?)) ≤ n := by
    intro target n
    rw [h target]
    cases o target <;> simp [left]
  have hBound : ∀ n, s.remaining ≤ n ↔ max (s.left ((o .node).bind (·.busyUntil?)))
      (s.left ((o .multiCluster).bind (·.busyUntil?))) ≤ n := by
    intro n
    rw [remaining_le_iff, Nat.max_le, ← hOwn, ← hOwn]
    constructor
    · intro hAll
      exact ⟨fun l hl => hAll l (mem_loops_iff.mpr ⟨_, hl⟩),
        fun l hl => hAll l (mem_loops_iff.mpr ⟨_, hl⟩)⟩
    · rintro ⟨hNode, hMulti⟩ l hl
      obtain ⟨target, hl⟩ := mem_loops_iff.mp hl
      cases target with
      | node => exact hNode l hl
      | multiCluster => exact hMulti l hl
  exact Nat.le_antisymm ((hBound _).mpr (Nat.le_refl _)) ((hBound _).mp (Nat.le_refl _))

theorem step_of_cancels {s : Supervisor} {a : Step} (h : a.Cancels s.derived) :
    s.step a = s.cancel.step a := by
  cases a with
  | cancelOuter =>
    have hDerived : s.derived = true := h
    have hCancelDerived : s.cancel.derived = true := h
    simp only [step, hDerived, hCancelDerived, if_true]
    rfl
  | cancel => rfl
  | shutdown => rfl
  | _ => cases h

theorem step_cancelled_iff (s : Supervisor) (a : Step) :
    (s.step a).state.cancelled = true ↔ s.cancelled = true ∨ a.Cancels s.derived := by
  by_cases hCancels : a.Cancels s.derived
  · rw [step_of_cancels hCancels]
    simp only [hCancels, or_true, iff_true]
    cases a with
    | cancel | shutdown => rfl
    | cancelOuter =>
      simp only [step]
      split <;> rfl
    | _ => cases hCancels
  · rw [(step_settings s a hCancels).2.2.1, or_iff_left hCancels]

theorem step_cancelled {s : Supervisor} (h : s.cancelled = true) (a : Step) :
    (s.step a).state.cancelled = true := (s.step_cancelled_iff a).mpr (.inl h)

theorem step_fixed (s : Supervisor) (a : Step) :
    (s.step a).state.interval = s.interval ∧ (s.step a).state.derived = s.derived := by
  by_cases hCancels : a.Cancels s.derived
  · cases a with
    | cancel | shutdown => exact ⟨rfl, rfl⟩
    | cancelOuter =>
      simp only [step]
      split <;> exact ⟨rfl, rfl⟩
    | _ => cases hCancels
  · exact ⟨(step_settings s a hCancels).1, (step_settings s a hCancels).2.1⟩

theorem after_derived (s : Supervisor) (steps : List Step) :
    (s.after steps).derived = s.derived := by
  induction steps generalizing s with
  | nil => rfl
  | cons a rest ih => rw [after_cons, ih, (s.step_fixed a).2]

def stop (s : Supervisor) : Step → Nat
  | .sleep ms => s.clock + ms
  | .shutdown => s.clock + s.remaining + 1
  | _ => s.clock

theorem lt_stop_iff {s : Supervisor} {a : Step} {x : Nat} (hLate : x ≤ s.clock + s.remaining) :
    x < s.stop a ↔ s.Passes [a] x := by
  unfold Passes
  rw [after_cons, after_nil, step_clock]
  cases a with
  | shutdown => simpa [stop] using Nat.lt_succ_of_le hLate
  | _ => simp [stop, span]

theorem step_clock_le_stop (s : Supervisor) (a : Step) : (s.step a).state.clock ≤ s.stop a := by
  rw [step_clock]
  cases a with
  | shutdown => exact Nat.le_succ _
  | _ => exact Nat.le_refl _

theorem busyUntil?_of_brief (s : Supervisor) (target : Target) (o : Option Loop) {a : Step}
    (h : a.brief = true) :
    (s.follow target o a).bind (·.busyUntil?) = o.bind (·.busyUntil?) := by
  obtain ⟨f, hFollow, _, _, hKeeps⟩ := s.follow_of_brief target h
  rw [hFollow]
  cases o with
  | none => rfl
  | some l => exact (hKeeps l).2

section Cancelled

variable {s : Supervisor} {target : Target} {o : Option Loop}

theorem of_cancelled (target : Target) (hCancelled : s.cancelled = true)
    (hAhead : ∀ x, o.bind (·.busyUntil?) = some x → s.clock ≤ x) (a : Step) :
    s.entries o a =
        (((o.bind (·.busyUntil?)).filter (· < s.stop a)).map fun x => ⟨.finish, x⟩).toList ∧
      (s.follow target o a).bind (·.busyUntil?) =
        (o.bind (·.busyUntil?)).filter (s.stop a ≤ ·) := by
  have hStill : s.stop a = s.clock → s.entries o a = [] →
      (s.follow target o a).bind (·.busyUntil?) = o.bind (·.busyUntil?) →
      s.entries o a =
          (((o.bind (·.busyUntil?)).filter (· < s.stop a)).map fun x => ⟨.finish, x⟩).toList ∧
        (s.follow target o a).bind (·.busyUntil?) =
          (o.bind (·.busyUntil?)).filter (s.stop a ≤ ·) := by
    intro hStop hEntries hFollow
    rw [hStop, hEntries, hFollow]
    cases hBusy : o.bind (·.busyUntil?) with
    | none => exact ⟨rfl, rfl⟩
    | some x => simp [Option.filter_some, hAhead x hBusy, Nat.not_lt.mpr (hAhead x hBusy)]
  cases a with
  | sleep ms =>
    cases o with
    | none => exact ⟨rfl, rfl⟩
    | some l =>
      simp only [entries, follow, hCancelled, Option.elim_some, Option.map_some, Option.bind_some]
      exact l.advance_cancelled _ _ _
  | shutdown =>
    cases o with
    | none => exact ⟨rfl, rfl⟩
    | some l => exact l.advance_cancelled _ _ _
  | spawn t duty paused =>
    refine hStill rfl rfl ?_
    cases o with
    | some l => simp [follow]
    | none => by_cases ht : t = target <;> simp [follow, ht, Loop.fresh, Loop.busyUntil?]
  | _ => exact hStill rfl rfl (s.busyUntil?_of_brief target o rfl)

theorem wind_up (hCancelled : s.cancelled = true) (hOwn : s.own target = o.toList)
    (hAhead : ∀ x, o.bind (·.busyUntil?) = some x → s.clock ≤ x) (steps : List Step) :
    WindUp (o.bind (·.busyUntil?)) (s.Passes steps) (Log.of target (s.history steps)) ∧
      ∃ o' : Option Loop, (s.after steps).own target = o'.toList ∧
        ∀ x, o'.bind (·.busyUntil?) = some x →
          o.bind (·.busyUntil?) = some x ∧ ¬ s.Passes steps x := by
  induction steps generalizing s o with
  | nil =>
    have hNotPast : ∀ x, o.bind (·.busyUntil?) = some x → ¬ s.Passes [] x := by
      intro x hx hPast
      have := hAhead x hx
      simp only [Passes, after_nil, List.not_mem_nil, or_false] at hPast
      omega
    exact ⟨.quiet hNotPast, o, hOwn, fun x hx => ⟨hx, hNotPast x hx⟩⟩
  | cons a rest ih =>
    have hOwn' := s.own_step target o a hOwn
    have hLog := s.of_log_step target o a hOwn
    obtain ⟨hEntries, hFollow⟩ := of_cancelled target hCancelled hAhead a
    rw [hEntries] at hLog
    rw [history, Log.of_append, hLog, after_cons]
    have hHere : ∀ x, o.bind (·.busyUntil?) = some x → (x < s.stop a ↔ s.Passes [a] x) :=
      fun x hx => lt_stop_iff (due_le_remaining hOwn hx)
    have hAhead' : ∀ x, (s.follow target o a).bind (·.busyUntil?) = some x →
        (s.step a).state.clock ≤ x := by
      intro x hx
      rw [hFollow, Option.filter_eq_some_iff] at hx
      exact Nat.le_trans (s.step_clock_le_stop a) (by simpa using hx.2)
    obtain ⟨hRest, o', hEnd, hIdle⟩ := ih (step_cancelled hCancelled a) hOwn' hAhead'
    rw [hFollow] at hRest hIdle
    refine ⟨hRest.cons hHere (s.passes_cons a rest), o', hEnd, ?_⟩
    intro x hx
    obtain ⟨hDue, hOpen⟩ := hIdle x hx
    obtain ⟨hDue, hLate⟩ := Option.filter_eq_some_iff.mp hDue
    refine ⟨hDue, ?_⟩
    rw [passes_cons, ← hHere x hDue, not_or]
    exact ⟨by simpa using hLate, hOpen⟩

end Cancelled

end Supervisor

section

variable {target : Target} {steps : List Step} {log : List LogEntry} {s : Supervisor}
  {o : Option Loop}

theorem duty?_eq_none_iff :
    duty? target steps = none ↔ ∀ d p, Step.spawn target d p ∉ steps := by
  rw [duty?, List.findSome?_eq_none_iff]
  constructor
  · intro hNone d p hMem
    simpa using hNone _ hMem
  · intro hAbsent a ha
    cases a with
    | spawn t d p =>
      refine if_neg ?_
      rintro rfl
      exact hAbsent d p ha
    | _ => rfl

theorem Told.wind_up (h : Told target steps log s o) {a : Step} (hCancels : a.Cancels s.derived)
    (after : List Step) :
    WindUp (due? target steps log) (s.Passes (a :: after))
        (Log.of target (s.history (a :: after))) ∧
      ∃ o' : Option Loop, (s.after (a :: after)).own target = o'.toList ∧
        ∀ x, o'.bind (·.busyUntil?) = some x → ¬ s.Passes (a :: after) x := by
  obtain ⟨hLog, o', hOwn, hIdle⟩ :=
    Supervisor.wind_up (s := s.cancel) rfl h.own_eq h.ahead (a :: after)
  have hStep := Supervisor.step_of_cancels hCancels
  have hHistory : s.history (a :: after) = s.cancel.history (a :: after) := by
    rw [Supervisor.history, hStep, Supervisor.history]
  have hAfter : s.after (a :: after) = s.cancel.after (a :: after) := by
    rw [Supervisor.after_cons, hStep, Supervisor.after_cons]
  have hPasses : s.Passes (a :: after) = s.cancel.Passes (a :: after) := by
    funext x
    rw [Supervisor.Passes, hAfter, Supervisor.Passes]
  rw [hHistory, hAfter, hPasses, h.due_eq]
  exact ⟨hLog, o', hOwn, fun x hx => (hIdle x hx).2⟩

theorem Told.idle (h : Told target steps log s o) {a : Step} (hCancels : a.Cancels s.derived)
    {after : List Step} (hShutdown : .shutdown ∈ a :: after) {l : Option Loop}
    (hOwn : (s.after (a :: after)).own target = l.toList) : l.bind (·.busyUntil?) = none := by
  obtain ⟨_, o', hOwn', hOpen⟩ := h.wind_up hCancels after
  have hSame : o' = l :=
    (Supervisor.loop?_of_own hOwn').symm.trans (Supervisor.loop?_of_own hOwn)
  rw [← hSame, Option.eq_none_iff_forall_ne_some]
  intro x hx
  exact hOpen x hx (.inr hShutdown)

theorem Told.never (h : Told target steps log s o)
    (hFirst : ∀ d p, Step.spawn target d p ∉ steps) {a : Step} (hCancels : a.Cancels s.derived)
    (after : List Step) : Log.of target (s.history (a :: after)) = [] := by
  have hWind := (h.wind_up hCancels after).1
  rw [due?, duty?_eq_none_iff.mpr hFirst] at hWind
  exact hWind.eq_nil

theorem Told.spawn_first (h : Told target steps log s o)
    (hFirst : ∀ d p, Step.spawn target d p ∉ steps) (duty : Duty) (paused : Bool) :
    (s.step (.spawn target duty paused)).answer = .ok .done ∧
      ((s.step (.spawn target duty paused)).state.step (.isPaused target)).answer =
        .ok (.flag paused) := by
  have hNone : o = none := by
    rw [← Option.map_eq_none_iff, h.duty_eq]
    exact duty?_eq_none_iff.mpr hFirst
  subst hNone
  have hLoop := Supervisor.loop?_of_own h.own_eq
  have hOwn := s.own_step target none (.spawn target duty paused) h.own_eq
  have hLoop' := Supervisor.loop?_of_own hOwn
  refine ⟨by simp [Supervisor.step, Supervisor.spawn, hLoop], ?_⟩
  generalize s.step (.spawn target duty paused) = spawned at hLoop'
  simp [Supervisor.step, Supervisor.withLoop, hLoop', Supervisor.follow, Loop.fresh]

theorem Told.spawn_again (h : Told target steps log s o)
    (hAgain : ∃ d p, Step.spawn target d p ∈ steps) (duty : Duty) (paused : Bool) :
    s.step (.spawn target duty paused) = ⟨s, .error (.duplicateTarget target), []⟩ := by
  cases o with
  | none =>
    obtain ⟨d, p, hMem⟩ := hAgain
    exact absurd hMem (duty?_eq_none_iff.mp h.duty_eq.symm d p)
  | some l =>
    have hLoop := Supervisor.loop?_of_own h.own_eq
    simp [Supervisor.step, Supervisor.spawn, hLoop]

end

/-- From a cancellation on each loop only ends its cycle in progress, when it is due, and a shutdown
takes until the last of these ends. A registration still counts, but starts no cycle. -/
theorem cancelled_run (interval : Nat) (derived : Bool) (before after : List Step) (a : Step)
    (hCancels : a.Cancels derived) :
    let s := Supervisor.ofInterval interval derived
    let here := s.after before
    let there := here.after (a :: after)
    let due := fun target => due? target before (Log.of target (s.history before))
    let took := max (here.left (due .node)) (here.left (due .multiCluster))
    (∀ target, (∀ x, due target = some x → here.clock ≤ x) ∧
      WindUp (due target) (here.Passes (a :: after)) (Log.of target (here.history (a :: after)))) ∧
    ((here.step .shutdown).answer = .ok (.took took) ∧
      (here.step .shutdown).state.clock = here.clock + took) ∧
    (.shutdown ∈ a :: after → (there.step .shutdown).answer = .ok (.took 0)) ∧
    ∀ target duty paused,
      ((∀ d p, Step.spawn target d p ∉ before ++ a :: after) →
        (there.step (.spawn target duty paused)).answer = .ok .done ∧
        ((there.step (.spawn target duty paused)).state.step (.isPaused target)).answer =
          .ok (.flag paused) ∧
        ∀ rest, Log.of target
          ((there.step (.spawn target duty paused)).state.history rest) = []) ∧
      ((∃ d p, Step.spawn target d p ∈ before ++ a :: after) →
        there.step (.spawn target duty paused) =
          ⟨there, .error (.duplicateTarget target), []⟩) := by
  intro s here there due took
  choose o hTold using fun target => told interval derived target before
  choose o' hTold' using fun target => told interval derived target (before ++ a :: after)
  have hHere : a.Cancels here.derived := by rwa [Supervisor.after_derived]
  have hThere : s.after (before ++ a :: after) = there := s.after_append before (a :: after)
  have hDue : ∀ target, due target = (o target).bind (·.busyUntil?) :=
    fun target => (hTold target).due_eq
  rw [hThere] at hTold'
  have hTook : here.remaining = took := by
    rw [Supervisor.remaining_eq fun target => (hTold target).own_eq, ← hDue, ← hDue]
  refine ⟨?_, ⟨?_, ?_⟩, ?_, ?_⟩
  · intro target
    refine ⟨?_, ((hTold target).wind_up hHere after).1⟩
    rw [hDue]
    exact (hTold target).ahead
  · rw [← hTook]
    rfl
  · rw [← hTook]
    rfl
  · intro hShut
    have hIdle : ∀ target, (o' target).bind (·.busyUntil?) = none :=
      fun target => (hTold target).idle hHere hShut (hTold' target).own_eq
    have hRemaining : there.remaining = 0 := by
      rw [Supervisor.remaining_eq fun target => (hTold' target).own_eq, hIdle, hIdle]
      rfl
    rw [← hRemaining]
    rfl
  · intro target duty paused
    refine ⟨?_, fun hAgain => (hTold' target).spawn_again hAgain duty paused⟩
    intro hFirst
    obtain ⟨hAnswer, hFlag⟩ := (hTold' target).spawn_first hFirst duty paused
    refine ⟨hAnswer, hFlag, ?_⟩
    intro rest
    have hAbsent : ∀ d p, Step.spawn target d p ∉ before :=
      fun d p hMem => hFirst d p (List.mem_append_left _ hMem)
    have hNever := (hTold target).never hAbsent hHere (after ++ .spawn target duty paused :: rest)
    rw [← List.cons_append, Supervisor.history_append, Log.of_append] at hNever
    have hSpawned := (List.append_eq_nil_iff.mp hNever).2
    rw [Supervisor.history, Log.of_append] at hSpawned
    exact (List.append_eq_nil_iff.mp hSpawned).2

/-- Cancelled through the outer token with two cycles in progress, one of which is to panic. -/
theorem cancelled_run_outer :
    let s := Supervisor.ofInterval 2000 true
    let here := s.after [.spawn .node ⟨500, Outcome.failure⟩ false,
      .spawn .multiCluster ⟨70, Outcome.panic⟩ false, .sleep 50]
    let steps := [Step.cancelOuter, .resume .node, .sleep 30, .shutdown]
    Log.of .node (here.history steps) = [⟨.finish, 500⟩] ∧
      Log.of .multiCluster (here.history steps) = [⟨.finish, 70⟩] ∧
      (here.step .shutdown).answer = .ok (.took 450) ∧
      ((here.after steps).step .shutdown).answer = .ok (.took 0) := by
  intro s here steps
  obtain ⟨hWind, ⟨hTook, _⟩, hAgain, _⟩ := cancelled_run 2000 true
    [.spawn .node ⟨500, Outcome.failure⟩ false, .spawn .multiCluster ⟨70, Outcome.panic⟩ false,
      .sleep 50] [.resume .node, .sleep 30, .shutdown] .cancelOuter rfl
  have hShut : Step.shutdown ∈ steps := by simp [steps]
  refine ⟨?_, ?_, ?_, hAgain hShut⟩
  · exact (hWind .node).2.eq_ended (x := 500) (by decide +kernel) (.inr hShut)
  · exact (hWind .multiCluster).2.eq_ended (x := 70) (by decide +kernel) (.inr hShut)
  · rw [hTook]
    congr 1
    decide +kernel

end GatewayTelemetry.Polling
