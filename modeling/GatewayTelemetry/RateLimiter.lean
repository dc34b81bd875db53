/-! # One push per window

Time is a count of milliseconds. A limiter remembers when it last admitted a push and admits the
next one once its window has elapsed.
-/

namespace GatewayTelemetry

structure RateLimiter where
  window : Nat
  last : Option Nat
  deriving Repr, DecidableEq

namespace RateLimiter

def ofWindow (window : Nat) : RateLimiter := ⟨window, none⟩

def isReady (l : RateLimiter) (now : Nat) : Bool :=
  match l.last with
  | some t => l.window ≤ now - t
  | none => true

def tryAcquire (l : RateLimiter) (now : Nat) : Bool × RateLimiter :=
  if l.isReady now then (true, { l with last := some now }) else (false, l)

def reset (l : RateLimiter) : RateLimiter := { l with last := none }

theorem tryAcquire_fst (l : RateLimiter) (now : Nat) : (l.tryAcquire now).1 = l.isReady now := by
  unfold tryAcquire
  split <;> simp_all

theorem tryAcquire_of_isReady {l : RateLimiter} {now : Nat} (h : l.isReady now = true) :
    l.tryAcquire now = (true, { l with last := some now }) := by
  simp [tryAcquire, h]

theorem tryAcquire_of_not_isReady {l : RateLimiter} {now : Nat} (h : l.isReady now = false) :
    l.tryAcquire now = (false, l) := by
  simp [tryAcquire, h]

end RateLimiter

end GatewayTelemetry
