import GatewayTelemetry.Record.Event

/-! # One polling loop

Time is a count of milliseconds. A loop rests until some instant, then starts a cycle at the first
instant of a sleep at which it is not paused; the cycle ends its working time later and the loop
rests for the interval. A pause never touches a cycle in progress, a cancelled loop starts none.
-/

namespace GatewayTelemetry.Polling

/-- How a cycle comes out. A panic ends the loop. -/
inductive Outcome where
  | success
  | failure
  | panic
  deriving Repr, DecidableEq

/-- What a collector does: the time a cycle takes, and how its cycles come out in turn. -/
structure Duty where
  work : Nat
  outcome : Nat → Outcome

instance : Coe Outcome (Nat → Outcome) := ⟨fun o _ => o⟩

inductive Phase where
  /-- No cycle before this instant. -/
  | resting (since : Nat)
  | working (finish : Nat)
  | stopped
  deriving Repr, DecidableEq

inductive Mark where
  | start
  | finish
  deriving Repr, DecidableEq

structure LogEntry where
  mark : Mark
  time : Nat
  deriving Repr, DecidableEq

/-- The rest between two cycles. A loop without any work rests for a tick at least, so that a cycle
and the rest after it always take time. -/
def Duty.rest (d : Duty) (interval : Nat) : Nat := if d.work = 0 then max interval 1 else interval

structure Loop where
  target : Target
  duty : Duty
  paused : Bool
  heartbeat : Option Nat
  phase : Phase
  ended : Nat

namespace Loop

def fresh (target : Target) (duty : Duty) (paused : Bool) (now : Nat) : Loop :=
  ⟨target, duty, paused, none, .resting now, 0⟩

def afterCycle (interval : Nat) (cancelled : Bool) (l : Loop) (time : Nat) : Phase :=
  if l.duty.outcome l.ended = .panic || cancelled then .stopped
  else .resting (time + l.duty.rest interval)

/-- Runs the loop over the instants from `now` up to, but not including, `stop`. -/
def advance (interval : Nat) (cancelled : Bool) (now stop : Nat) (l : Loop) :
    Loop × List LogEntry :=
  match _hp : l.phase with
  | .stopped => (l, [])
  | .resting since =>
    if cancelled then ({ l with phase := .stopped }, [])
    else if _h : l.paused = false ∧ max since now < stop then
      let time := max since now
      let started := { l with heartbeat := some time, phase := .working (time + l.duty.work) }
      let (l', log) := advance interval cancelled now stop started
      (l', ⟨.start, time⟩ :: log)
    else (l, [])
  | .working finish =>
    if _h : finish < stop then
      let (l', log) := advance interval cancelled now stop
        { l with phase := l.afterCycle interval cancelled finish, ended := l.ended + 1 }
      (l', ⟨.finish, finish⟩ :: log)
    else (l, [])
termination_by
  match l.phase with
  | .resting since => 2 * (stop - max since now) + if l.duty.work = 0 then 1 else 0
  | .working finish => 2 * (stop - finish) + if l.duty.work = 0 then 0 else 1
  | .stopped => 0
decreasing_by
  all_goals simp_all only [afterCycle, Duty.rest]
  · grind
  · split <;> grind

def busyUntil? (l : Loop) : Option Nat :=
  match l.phase with
  | .working finish => some finish
  | _ => none

end Loop

end GatewayTelemetry.Polling
