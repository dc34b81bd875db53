import GatewayTelemetry.Error
import GatewayTelemetry.Polling.Loop

/-! # The supervisor of the polling loops

At most one loop per target. Loops make progress only while the supervisor sleeps or shuts down.
They are kept in the order in which they take their turns when two are due at one instant: a loop
that a resume wakes at its gate goes behind the others.
-/

namespace GatewayTelemetry.Polling

structure Supervisor where
  interval : Nat
  clock : Nat
  cancelled : Bool
  /-- Cancelling the outer token reaches this supervisor. -/
  derived : Bool
  loops : List Loop

inductive Step where
  | spawn (target : Target) (duty : Duty) (paused : Bool)
  | pause (target : Target)
  | resume (target : Target)
  | isPaused (target : Target)
  | pausingDuration (target : Target)
  | lastHeartbeat (target : Target)
  | interval
  | sleep (ms : Nat)
  | cancel
  | cancelOuter
  | shutdown

inductive Answer where
  | done
  | flag (b : Bool)
  | duration (ms : Option Nat)
  | interval (ms : Nat)
  | took (ms : Nat)
  deriving Repr, DecidableEq

abbrev Log := List (Target × List LogEntry)

structure Reaction where
  state : Supervisor
  answer : Except AgentError Answer
  log : Log

namespace Supervisor

def ofInterval (interval : Nat) (derived : Bool) : Supervisor :=
  ⟨interval, 0, false, derived, []⟩

def loop? (s : Supervisor) (target : Target) : Option Loop :=
  s.loops.find? fun l => l.target == target

def spawn (s : Supervisor) (target : Target) (duty : Duty) (paused : Bool) :
    Except AgentError Supervisor :=
  match s.loop? target with
  | some _ => .error (.duplicateTarget target)
  | none => .ok { s with loops := s.loops ++ [.fresh target duty paused s.clock] }

def pauseLoop (target : Target) (l : Loop) : Loop :=
  if l.target = target then { l with paused := true } else l

def isParked (now : Nat) (l : Loop) : Bool :=
  match l.phase with
  | .resting since => l.paused && since < now
  | _ => false

def wake (now : Nat) (l : Loop) : Loop :=
  if isParked now l then { l with paused := false, phase := .resting now }
  else { l with paused := false }

def resumeIn (now : Nat) (target : Target) (loops : List Loop) : List Loop :=
  let (moving, staying) := loops.partition fun l => l.target == target && isParked now l
  staying.map (fun l => if l.target = target then wake now l else l) ++ moving.map (wake now)

def run (s : Supervisor) (stop finish : Nat) : Supervisor × Log :=
  let ran := s.loops.map fun l => l.advance s.interval s.cancelled s.clock stop
  ({ s with clock := finish, loops := ran.map (·.1) }, ran.map fun r => (r.1.target, r.2))

def sleep (s : Supervisor) (ms : Nat) : Supervisor × Log := s.run (s.clock + ms) (s.clock + ms)

def cancel (s : Supervisor) : Supervisor := { s with cancelled := true }

def remaining (s : Supervisor) : Nat :=
  s.loops.foldl (fun n l => max n ((l.busyUntil?.map (· - s.clock)).getD 0)) 0

def shutdown (s : Supervisor) : Supervisor × Log × Nat :=
  let took := s.remaining
  let (s', log) := s.cancel.run (s.clock + took + 1) (s.clock + took)
  (s', log, took)

def withLoop (s : Supervisor) (target : Target) (react : Loop → Supervisor × Answer) : Reaction :=
  match s.loop? target with
  | some l => ⟨(react l).1, .ok (react l).2, []⟩
  | none => ⟨s, .error (.unknownTarget target), []⟩

def step (s : Supervisor) : Step → Reaction
  | .spawn target duty paused =>
    match s.spawn target duty paused with
    | .ok s' => ⟨s', .ok .done, []⟩
    | .error e => ⟨s, .error e, []⟩
  | .pause target =>
    s.withLoop target fun _ => ({ s with loops := s.loops.map (pauseLoop target) }, .done)
  | .resume target =>
    s.withLoop target fun _ => ({ s with loops := resumeIn s.clock target s.loops }, .done)
  | .isPaused target => s.withLoop target fun l => (s, .flag l.paused)
  | .pausingDuration target =>
    s.withLoop target fun l => (s, .duration (l.heartbeat.map (s.clock - ·)))
  | .lastHeartbeat target => s.withLoop target fun l => (s, .flag l.heartbeat.isSome)
  | .interval => ⟨s, .ok (.interval s.interval), []⟩
  | .sleep ms => ⟨(s.sleep ms).1, .ok .done, (s.sleep ms).2⟩
  | .cancel => ⟨s.cancel, .ok .done, []⟩
  | .cancelOuter => ⟨if s.derived then s.cancel else s, .ok .done, []⟩
  | .shutdown => ⟨s.shutdown.1, .ok (.took s.shutdown.2.2), s.shutdown.2.1⟩

end Supervisor

end GatewayTelemetry.Polling
