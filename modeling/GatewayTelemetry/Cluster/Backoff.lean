import GatewayTelemetry.Cluster.Feed

/-! # Delays between sessions

After a session that failed the next one waits; the wait doubles with every failure in a row up to
a limit. Only a session that ended on its own starts the row anew.
-/

namespace GatewayTelemetry.Backoff

/-- Seconds. -/
def first : Nat := 1

def longest : Nat := 30

inductive Ending where
  | ended
  | failed
  deriving Repr, DecidableEq

/-- A finished session: what arrived in it, and how it ended. -/
structure Past where
  notices : List Notice
  ending : Ending
  deriving Repr, DecidableEq

/-- The wait before the next session, and the wait that the next failure would cause. -/
def after (wait : Nat) : Ending → Option Nat × Nat
  | .ended => (none, first)
  | .failed => (some wait, min (wait * 2) longest)

def waits (wait : Nat) : List Past → List (Option Nat)
  | [] => []
  | p :: rest => (after wait p.ending).1 :: waits (after wait p.ending).2 rest

def schedule (sessions : List Past) : List (Option Nat) := waits first sessions

end GatewayTelemetry.Backoff
