import GatewayTelemetry.Proofs.Polling.Run
import Mathlib.Algebra.GroupWithZero.Nat

/-! # The schedule of a polling loop

The steps of a run alone fix when the cycles of a target happen. Its gate is open at the instants
that lie in a sleep during which the target is not paused. A cycle starts at the first such instant
from the registration on, and each later one at the first such instant from the end of the cycle
before it plus the interval on; a panic is the last cycle. `Schedule.unique`: the gate leaves no
choice.
-/

namespace GatewayTelemetry.Polling

def elapsed (steps : List Step) : Nat := (steps.map Step.length).sum

/-- The pause flag of a target behind a step; no flag before its registration. -/
def flagAfter (target : Target) (flag : Option Bool) : Step → Option Bool
  | .spawn t _ paused => if t = target then flag.or (some paused) else flag
  | .pause t => if t = target then flag.map fun _ => true else flag
  | .resume t => if t = target then flag.map fun _ => false else flag
  | _ => flag

def flag? (target : Target) (steps : List Step) : Option Bool :=
  steps.foldl (flagAfter target) none

/-- The instant lies in a sleep of the run during which the target is registered and not paused. -/
def Gate (target : Target) (steps : List Step) (x : Nat) : Prop :=
  ∃ before ms after, steps = before ++ .sleep ms :: after ∧ flag? target before = some false ∧
    elapsed before ≤ x ∧ x < elapsed before + ms

@[simp] theorem elapsed_append (first second : List Step) :
    elapsed (first ++ second) = elapsed first + elapsed second := by
  simp [elapsed]

@[simp] theorem elapsed_cons (a : Step) (rest : List Step) :
    elapsed (a :: rest) = a.length + elapsed rest := by
  simp [elapsed]

theorem flag?_append (target : Target) (done : List Step) (a : Step) :
    flag? target (done ++ [a]) = flagAfter target (flag? target done) a := by
  simp [flag?]

theorem Gate.lt {target : Target} {steps : List Step} {x : Nat} (h : Gate target steps x) :
    x < elapsed steps := by
  obtain ⟨before, ms, after, rfl, _, _, hLess⟩ := h
  simp only [elapsed_append, elapsed_cons, Step.length]
  omega

theorem gate_iff {target : Target} {done rest : List Step} {ms x : Nat} (hFrom : elapsed done ≤ x)
    (hTo : x < elapsed done + ms) :
    Gate target (done ++ .sleep ms :: rest) x ↔ flag? target done = some false := by
  constructor
  · rintro ⟨before, ms', after, hSplit, hFlag, hFrom', hTo'⟩
    -- The sleeps of a run do not overlap, so the one around `x` is this one.
    rcases List.append_eq_append_iff.mp hSplit with ⟨mid, rfl, hMid⟩ | ⟨mid, rfl, hMid⟩
    · cases mid with
      | nil => simpa using hFlag
      | cons a mid =>
        obtain ⟨rfl, _⟩ := List.cons.inj hMid
        simp only [elapsed_append, elapsed_cons, Step.length] at hFrom'
        omega
    · cases mid with
      | nil => simpa using hFlag
      | cons a mid =>
        obtain ⟨rfl, _⟩ := List.cons.inj hMid
        simp only [elapsed_append, elapsed_cons, Step.length] at hFrom
        omega
  · intro hFlag
    exact ⟨done, ms, rest, rfl, hFlag, hFrom, hTo⟩

def Earliest (gate : Nat → Prop) (due x : Nat) : Prop :=
  gate x ∧ due ≤ x ∧ ∀ y, due ≤ y → y < x → ¬ gate y

/-- Cycles without a panic that started at the given instants, one after the other, in a loop
registered at `origin`; the next one is due at the last argument. -/
inductive Cycles (gate : Nat → Prop) (interval : Nat) (duty : Duty) (origin : Nat) :
    List Nat → Nat → Prop where
  | none : Cycles gate interval duty origin [] origin
  | next {starts : List Nat} {due x : Nat} :
      Cycles gate interval duty origin starts due → Earliest gate due x →
      duty.outcome starts.length ≠ .panic →
      Cycles gate interval duty origin (starts ++ [x]) (x + duty.work + interval)

/-- What follows `n` cycles when the next one is due: nothing if no instant is left for it, or one
that panics and is the last. -/
inductive Last (gate : Nat → Prop) (duty : Duty) (n due : Nat) : List Nat → Prop where
  | waiting : (∀ x, due ≤ x → ¬ gate x) → Last gate duty n due []
  | panicked {x : Nat} :
      Earliest gate due x → duty.outcome n = .panic → Last gate duty n due [x]

def Schedule (gate : Nat → Prop) (interval : Nat) (duty : Duty) (origin : Nat)
    (starts : List Nat) : Prop :=
  ∃ ended due last, starts = ended ++ last ∧ Cycles gate interval duty origin ended due ∧
    Last gate duty ended.length due last

def Duty.entries (duty : Duty) (now x : Nat) : List LogEntry :=
  ⟨.start, x⟩ :: if x + duty.work < now then [⟨.finish, x + duty.work⟩] else []

variable {gate : Nat → Prop} {interval origin now : Nat} {duty : Duty}

theorem Earliest.unique {due x y : Nat} (hx : Earliest gate due x) (hy : Earliest gate due y) :
    x = y := by
  obtain ⟨hGateX, hDueX, hFirstX⟩ := hx
  obtain ⟨hGateY, hDueY, hFirstY⟩ := hy
  rcases Nat.lt_trichotomy x y with h | h | h
  · exact absurd hGateX (hFirstY x hDueX h)
  · exact h
  · exact absurd hGateY (hFirstX y hDueY h)

theorem Cycles.pairwise {starts : List Nat} {due : Nat}
    (h : Cycles gate interval duty origin starts due) :
    starts.Pairwise (fun x y => x + duty.work + interval ≤ y) ∧
      ∀ x ∈ starts, x + duty.work + interval ≤ due := by
  induction h with
  | none => exact ⟨.nil, by simp⟩
  | @next starts due x _ hFirst _ ih =>
    obtain ⟨hApart, hBefore⟩ := ih
    have hDue : due ≤ x := hFirst.2.1
    constructor
    · rw [List.pairwise_append]
      refine ⟨hApart, List.pairwise_singleton _ _, ?_⟩
      intro y hy z hz
      rw [List.mem_singleton.mp hz]
      exact Nat.le_trans (hBefore y hy) hDue
    · intro y hy
      rcases List.mem_append.mp hy with hy | hy
      · have := hBefore y hy
        omega
      · exact (List.mem_singleton.mp hy) ▸ Nat.le_refl _

theorem Schedule.pairwise {starts : List Nat} (h : Schedule gate interval duty origin starts) :
    starts.Pairwise fun x y => x + duty.work + interval ≤ y := by
  obtain ⟨ended, due, last, rfl, hCycles, hLast⟩ := h
  obtain ⟨hApart, hBefore⟩ := hCycles.pairwise
  cases hLast with
  | waiting _ => rwa [List.append_nil]
  | panicked hFirst _ =>
    rw [List.pairwise_append]
    refine ⟨hApart, List.pairwise_singleton _ _, ?_⟩
    intro y hy z hz
    rw [List.mem_singleton.mp hz]
    exact Nat.le_trans (hBefore y hy) hFirst.2.1

theorem Cycles.extend {xs ys : List Nat} {dueX dueY : Nat}
    (hx : Cycles gate interval duty origin xs dueX) (hy : Cycles gate interval duty origin ys dueY)
    (hLength : xs.length ≤ ys.length) :
    (ys = xs ∧ dueX = dueY) ∨
      ∃ x rest, ys = xs ++ x :: rest ∧ Earliest gate dueX x ∧ duty.outcome xs.length ≠ .panic := by
  induction hy generalizing xs dueX with
  | none =>
    cases hx with
    | none => exact .inl ⟨rfl, rfl⟩
    | next _ _ _ => simp at hLength
  | @next ys dueY y hCycles hFirst hOutcome ih =>
    by_cases hShort : xs.length ≤ ys.length
    · rcases ih hx hShort with ⟨rfl, rfl⟩ | ⟨x, rest, rfl, hNext, hNoPanic⟩
      · exact .inr ⟨y, [], rfl, hFirst, hOutcome⟩
      · exact .inr ⟨x, rest ++ [y], by simp, hNext, hNoPanic⟩
    · cases hx with
      | none => simp at hShort
      | @next xs dueX x hCyclesX hFirstX _ =>
        simp only [List.length_append, List.length_singleton] at hShort hLength
        rcases ih hCyclesX (by omega) with ⟨rfl, rfl⟩ | ⟨_, _, rfl, _, _⟩
        · rw [hFirstX.unique hFirst]
          exact .inl ⟨rfl, rfl⟩
        · simp only [List.length_append, List.length_cons] at hShort
          omega

theorem Last.unique {n due : Nat} {xs ys : List Nat} (hx : Last gate duty n due xs)
    (hy : Last gate duty n due ys) : xs = ys := by
  cases hx with
  | waiting hClosed =>
    cases hy with
    | waiting _ => rfl
    | panicked hFirst _ => exact absurd hFirst.1 (hClosed _ hFirst.2.1)
  | panicked hFirst _ =>
    cases hy with
    | waiting hClosed => exact absurd hFirst.1 (hClosed _ hFirst.2.1)
    | panicked hFirst' _ => rw [hFirst.unique hFirst']

theorem Last.not_due {n due x : Nat} {xs : List Nat} (h : Last gate duty n due xs)
    (hFirst : Earliest gate due x) : duty.outcome n = .panic := by
  cases h with
  | waiting hClosed => exact absurd hFirst.1 (hClosed x hFirst.2.1)
  | panicked _ hPanic => exact hPanic

theorem Schedule.unique {xs ys : List Nat} (hx : Schedule gate interval duty origin xs)
    (hy : Schedule gate interval duty origin ys) : xs = ys := by
  obtain ⟨endedX, dueX, lastX, rfl, hCyclesX, hLastX⟩ := hx
  obtain ⟨endedY, dueY, lastY, rfl, hCyclesY, hLastY⟩ := hy
  rcases Nat.le_total endedX.length endedY.length with hLength | hLength
  · rcases hCyclesX.extend hCyclesY hLength with ⟨rfl, rfl⟩ | ⟨x, _, _, hFirst, hNoPanic⟩
    · rw [hLastX.unique hLastY]
    · exact absurd (hLastX.not_due hFirst) hNoPanic
  · rcases hCyclesY.extend hCyclesX hLength with ⟨rfl, rfl⟩ | ⟨x, _, _, hFirst, hNoPanic⟩
    · rw [hLastX.unique hLastY]
    · exact absurd (hLastY.not_due hFirst) hNoPanic

end GatewayTelemetry.Polling
