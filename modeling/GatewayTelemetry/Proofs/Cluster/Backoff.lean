import GatewayTelemetry.Cluster.Backoff
import Mathlib.Algebra.Order.Ring.Nat
import Mathlib.Data.List.DropRight

/-! # The wait behind a row of failures

The wait before the next session is told by how many sessions failed in a row before this one: it is
one second at first and doubles with each of them, up to half a minute. What a session achieved has
no part in it. A session that completed its listing and then failed is one more of the row, so only
one that ended takes the wait back to a second.
-/

namespace GatewayTelemetry.Backoff

def row (sessions : List Past) : Nat :=
  (sessions.rtakeWhile fun p => p.ending = .failed).length

def Past.Listed (p : Past) : Prop := .listingEnds ∈ p.notices

instance (p : Past) : Decidable p.Listed :=
  inferInstanceAs (Decidable (.listingEnds ∈ p.notices))

def next (wait : Nat) (sessions : List Past) : Nat :=
  sessions.foldl (fun wait p => (after wait p.ending).2) wait

variable {before rest : List Past} {p q : Past}

theorem row_concat (sessions : List Past) (p : Past) :
    row (sessions ++ [p]) = if p.ending = .failed then row sessions + 1 else 0 := by
  rw [row, List.rtakeWhile_concat]
  by_cases hFailed : p.ending = .failed
  · simp [hFailed, row]
  · simp [hFailed]

theorem after_failed (k : Nat) :
    after (min (2 ^ k) longest) .failed =
      (some (min (2 ^ k) longest), min (2 ^ (k + 1)) longest) := by
  have hDoubled : min (min (2 ^ k) longest * 2) longest = min (2 ^ (k + 1)) longest := by
    rw [pow_succ]
    omega
  rw [after, hDoubled]

theorem waits_append (wait : Nat) (before rest : List Past) :
    waits wait (before ++ rest) = waits wait before ++ waits (next wait before) rest := by
  induction before generalizing wait with
  | nil => rfl
  | cons p before ih =>
    rw [List.cons_append, waits, ih, waits, List.cons_append]
    rfl

theorem length_waits (wait : Nat) (sessions : List Past) :
    (waits wait sessions).length = sessions.length := by
  induction sessions generalizing wait with
  | nil => rfl
  | cons p rest ih => rw [waits, List.length_cons, ih, List.length_cons]

theorem next_first (sessions : List Past) :
    next first sessions = min (2 ^ row sessions) longest := by
  induction sessions using List.reverseRecOn with
  | nil => rfl
  | append_singleton sessions p ih =>
    have hConcat : next first (sessions ++ [p]) = (after (next first sessions) p.ending).2 :=
      List.foldl_append
    rw [hConcat, ih, row_concat]
    cases hEnding : p.ending with
    | ended => rfl
    | failed => rw [after_failed, if_pos rfl]

theorem getElem?_schedule (before : List Past) (p : Past) (rest : List Past) :
    (schedule (before ++ p :: rest))[before.length]? =
      some (after (min (2 ^ row before) longest) p.ending).1 := by
  rw [schedule, waits_append, waits, next_first, ← length_waits first before,
    List.getElem?_append_right (Nat.le_refl _), Nat.sub_self, List.getElem?_cons_zero]

theorem getElem?_schedule_second (before : List Past) (p q : Past) (rest : List Past) :
    (schedule (before ++ p :: q :: rest))[before.length + 1]? =
      some (after (min (2 ^ row (before ++ [p])) longest) q.ending).1 := by
  have hWait := getElem?_schedule (before ++ [p]) q rest
  rwa [List.append_assoc, List.singleton_append, List.length_append, List.length_singleton] at hWait

theorem restarts_iff (hFailed : q.ending = .failed) :
    (schedule (before ++ p :: q :: rest))[before.length + 1]? = some (some 1) ↔
      p.ending = .ended := by
  rw [getElem?_schedule_second, hFailed, row_concat]
  cases hEnding : p.ending with
  | ended => exact ⟨fun _ => rfl, fun _ => rfl⟩
  | failed =>
    rw [if_pos rfl, after_failed, pow_succ]
    have hPos : 0 < 2 ^ row before := Nat.pow_pos (by decide)
    simp only [longest, Option.some.injEq, reduceCtorEq, iff_false]
    omega

theorem le_of_mem_waits {wait w : Nat} {sessions : List Past} (hWait : wait ≤ longest)
    (h : some w ∈ waits wait sessions) : w ≤ longest := by
  induction sessions generalizing wait with
  | nil => cases h
  | cons p rest ih =>
    rw [waits] at h
    cases hEnding : p.ending with
    | ended =>
      rw [hEnding] at h
      rcases List.mem_cons.mp h with hFirst | hRest
      · cases hFirst
      · exact ih (show first ≤ longest by decide) hRest
    | failed =>
      rw [hEnding] at h
      rcases List.mem_cons.mp h with hFirst | hRest
      · cases hFirst
        exact hWait
      · exact ih (Nat.min_le_right _ _) hRest

/-- No wait is above half a minute. A session that ended is followed at once by the next one, one
that failed after a wait that doubles with every failure directly before it. The wait is back at a
second behind a session exactly if that session ended, and not by what it listed. -/
theorem waits_by_row :
    (∀ sessions w, some w ∈ schedule sessions → w ≤ 30) ∧
    (∀ before p rest, p.ending = .ended →
      (schedule (before ++ p :: rest))[before.length]? = some none) ∧
    (∀ before p rest, p.ending = .failed →
      (schedule (before ++ p :: rest))[before.length]? = some (some (min (2 ^ row before) 30))) ∧
    ∀ before p q rest, q.ending = .failed →
      ((schedule (before ++ p :: q :: rest))[before.length + 1]? = some (some 1) ↔
        p.ending = .ended) := by
  refine ⟨fun sessions w => le_of_mem_waits (by decide), ?_, ?_, ?_⟩
  · intro before p rest hEnded
    rw [getElem?_schedule, hEnded, after]
  · intro before p rest hFailed
    rw [getElem?_schedule, hFailed, after]
    rfl
  · exact fun before p q rest => restarts_iff

/-- Six failures, a listing that ended well, one that failed, and a failure behind it. -/
theorem waits_by_row_mixed :
    let failed : Past := ⟨[], .failed⟩
    let ended : Past := ⟨[.listingStarts, .listingEnds], .ended⟩
    let lost : Past := ⟨[.listingStarts, .listingEnds], .failed⟩
    let before := List.replicate 6 failed
    some 30 ∈ schedule before ∧ (30 ≤ 30) ∧
      (schedule (before ++ ended :: [lost, failed]))[6]? = some none ∧
      (schedule (before ++ lost :: [failed]))[6]? = some (some (min (2 ^ row before) 30)) ∧
      (schedule (before ++ ended :: lost :: [failed]))[7]? = some (some 1) := by
  intro failed ended lost before
  obtain ⟨hBound, hEnded, hFailed, hRestart⟩ := waits_by_row
  have hLongest : some 30 ∈ schedule before := by decide
  exact ⟨hLongest, hBound before 30 hLongest, hEnded before ended [lost, failed] rfl,
    hFailed before lost [failed] rfl, (hRestart before ended lost [failed] rfl).mpr rfl⟩

/-- Two sessions that both came to the end of their listing before they failed. -/
theorem listing_is_no_restart :
    let lost : Past := ⟨[.listingStarts, .listingEnds], .failed⟩
    lost.Listed ∧ schedule [lost, lost] = [some 1, some 2] ∧
      ¬ ∀ before p q rest, p.Listed → q.Listed → q.ending = .failed →
        (schedule (before ++ p :: q :: rest))[before.length + 1]? = some (some 1) := by
  intro lost
  have hSchedule : schedule [lost, lost] = [some 1, some 2] := by decide
  refine ⟨by decide, hSchedule, fun hRestarts => ?_⟩
  have hSecond := hRestarts [] lost lost [] (by decide) (by decide) rfl
  rw [List.nil_append, hSchedule] at hSecond
  cases hSecond

end GatewayTelemetry.Backoff
