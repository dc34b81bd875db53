import GatewayTelemetry.RateLimiter
import Mathlib.Data.List.DropRight

/-! # What a limiter admits over its calls

While the clock does not go back, a claim is admitted exactly when no claim admitted since the last
reset is less than a window old. Asking whether the window is free, or a claim that is refused, has
no part in what follows. So without a reset the admitted claims are a window apart, and of all
claims they are the earliest that are.
-/

namespace GatewayTelemetry.RateLimiter

theorem isReady_iff {l : RateLimiter} {now : Nat} (h : ∀ t ∈ l.last, t ≤ now) :
    l.isReady now = true ↔ ∀ t ∈ l.last, t + l.window ≤ now := by
  unfold isReady
  cases hLast : l.last with
  | none => simp
  | some t =>
    have hPast : t ≤ now := h t (by simp [hLast])
    simp only [decide_eq_true_eq, Option.mem_some_iff, forall_eq']
    omega

inductive Call where
  | acquire
  | ready
  | reset
  deriving Repr, DecidableEq

def call (l : RateLimiter) (now : Nat) : Call → Option Bool × RateLimiter
  | .acquire => ((l.tryAcquire now).1, (l.tryAcquire now).2)
  | .ready => (l.isReady now, l)
  | .reset => (none, l.reset)

structure Entry where
  time : Nat
  call : Call
  answer : Option Bool
  deriving Repr, DecidableEq

def Entry.admission? (e : Entry) : Option Nat :=
  if e.call = .acquire ∧ e.answer = some true then some e.time else none

def run (l : RateLimiter) (history : List (Nat × Call)) : RateLimiter :=
  history.foldl (fun l c => (l.call c.1 c.2).2) l

def record (l : RateLimiter) : List (Nat × Call) → List Entry
  | [] => []
  | c :: rest => ⟨c.1, c.2, (l.call c.1 c.2).1⟩ :: record (l.call c.1 c.2).2 rest

def admitted (entries : List Entry) : List Nat :=
  (entries.rtakeWhile fun e => e.call ≠ .reset).filterMap Entry.admission?

def attempts (history : List (Nat × Call)) : List Nat :=
  (history.filter fun c => c.2 = .acquire).map (·.1)

def Chronological (history : List (Nat × Call)) : Prop :=
  history.Pairwise fun c d => c.1 ≤ d.1

instance (history : List (Nat × Call)) : Decidable (Chronological history) :=
  inferInstanceAs (Decidable (List.Pairwise _ history))

variable {l : RateLimiter} {history before after : List (Nat × Call)} {t window : Nat} {c : Call}

theorem window_call (l : RateLimiter) (t : Nat) (c : Call) : (l.call t c).2.window = l.window := by
  cases c with
  | acquire =>
    rw [call, tryAcquire]
    split <;> rfl
  | ready => rfl
  | reset => rfl

theorem last_call (l : RateLimiter) (t : Nat) (c : Call) :
    (l.call t c).2.last =
      if c = .reset then none else (Entry.admission? ⟨t, c, (l.call t c).1⟩).or l.last := by
  cases c with
  | acquire =>
    cases hReady : l.isReady t with
    | true => simp [call, tryAcquire_of_isReady hReady, Entry.admission?]
    | false => simp [call, tryAcquire_of_not_isReady hReady, Entry.admission?]
  | ready => rfl
  | reset => rfl

theorem call_eq_self (h : c = .ready ∨ c = .acquire ∧ (l.tryAcquire t).1 = false) :
    (l.call t c).2 = l := by
  rcases h with rfl | ⟨rfl, hRefused⟩
  · rfl
  · rw [tryAcquire_fst] at hRefused
    rw [call, tryAcquire_of_not_isReady hRefused]

theorem run_append (l : RateLimiter) (before after : List (Nat × Call)) :
    l.run (before ++ after) = (l.run before).run after := List.foldl_append

theorem record_append (l : RateLimiter) (before after : List (Nat × Call)) :
    l.record (before ++ after) = l.record before ++ (l.run before).record after := by
  induction before generalizing l with
  | nil => rfl
  | cons c before ih =>
    rw [List.cons_append, record, ih, record, List.cons_append]
    rfl

theorem length_record (l : RateLimiter) (history : List (Nat × Call)) :
    (l.record history).length = history.length := by
  induction history generalizing l with
  | nil => rfl
  | cons c rest ih => rw [record, List.length_cons, ih, List.length_cons]

theorem window_run (l : RateLimiter) (history : List (Nat × Call)) :
    (l.run history).window = l.window := by
  induction history using List.reverseRecOn with
  | nil => rfl
  | append_singleton history c ih =>
    rw [run_append]
    exact (window_call _ _ _).trans ih

theorem admitted_concat (entries : List Entry) (e : Entry) :
    admitted (entries ++ [e]) =
      if e.call = .reset then [] else admitted entries ++ e.admission?.toList := by
  rw [admitted, List.rtakeWhile_concat]
  by_cases hReset : e.call = .reset
  · simp [hReset]
  · cases hAdmission : e.admission? <;> simp [hReset, admitted, hAdmission]

theorem last_run (window : Nat) (history : List (Nat × Call)) :
    ((ofWindow window).run history).last =
      (admitted ((ofWindow window).record history)).getLast? := by
  induction history using List.reverseRecOn with
  | nil => rfl
  | append_singleton history c ih =>
    rw [run_append, record_append, record, record, admitted_concat]
    refine (last_call _ _ _).trans ?_
    by_cases hReset : c.2 = .reset
    · simp [hReset]
    · rw [if_neg hReset, if_neg hReset, ih]
      cases Entry.admission? _ <;> simp

theorem mem_admitted {entries : List Entry} (h : t ∈ admitted entries) :
    ∃ e ∈ entries, e.time = t := by
  obtain ⟨e, hMem, hAdmission⟩ := List.mem_filterMap.mp h
  refine ⟨e, (List.rtakeWhile_suffix _ _).subset hMem, ?_⟩
  rw [Entry.admission?] at hAdmission
  split at hAdmission <;> cases hAdmission
  rfl

theorem mem_record {e : Entry} (h : e ∈ l.record history) : (e.time, e.call) ∈ history := by
  induction history generalizing l with
  | nil => cases h
  | cons c rest ih =>
    rcases List.mem_cons.mp h with rfl | hRest
    · exact List.mem_cons_self
    · exact List.mem_cons_of_mem c (ih hRest)

theorem last_le (h : Chronological (history ++ [(t, c)])) :
    ∀ s ∈ ((ofWindow window).run history).last, s ≤ t := by
  intro s hLast
  rw [last_run] at hLast
  obtain ⟨e, hMem, rfl⟩ := mem_admitted (List.mem_of_getLast? hLast)
  exact (List.pairwise_append.mp h).2.2 _ (mem_record hMem) _ (List.mem_singleton_self _)

theorem tryAcquire_run_iff (h : Chronological (history ++ [(t, .acquire)])) :
    (((ofWindow window).run history).tryAcquire t).1 = true ↔
      ∀ s ∈ (admitted ((ofWindow window).record history)).getLast?, s + window ≤ t := by
  rw [tryAcquire_fst, isReady_iff (last_le h), last_run, window_run]
  rfl

theorem record_without (h : c = .ready ∨ c = .acquire ∧ ((l.run before).tryAcquire t).1 = false) :
    (l.record (before ++ (t, c) :: after)).drop (before.length + 1) =
      (l.record (before ++ after)).drop before.length := by
  rw [record_append, record_append, record, call_eq_self h, ← length_record l before,
    List.drop_left, ← List.drop_drop, List.drop_left]
  rfl

/-- The earliest that are a window apart: the first, then each time the first a window later. -/
def spaced (window : Nat) : List Nat → List Nat
  | [] => []
  | t :: rest => t :: spaced window (rest.dropWhile fun s => s < t + window)
termination_by times => times.length
decreasing_by exact Nat.lt_succ_of_le (List.dropWhile_sublist _).length_le

def Apart (window : Nat) (times : List Nat) : Prop :=
  times.Pairwise fun s t => s + window ≤ t

instance (window : Nat) (times : List Nat) : Decidable (Apart window times) :=
  inferInstanceAs (Decidable (List.Pairwise _ times))

variable {times chosen : List Nat}

theorem spaced_cons (window t : Nat) (rest : List Nat) :
    spaced window (t :: rest) = t :: spaced window (rest.dropWhile fun s => s < t + window) := by
  rw [spaced]

theorem spaced_sublist (window : Nat) (times : List Nat) : (spaced window times).Sublist times := by
  induction times using spaced.induct window with
  | case1 => rw [spaced]
  | case2 t rest ih =>
    rw [spaced_cons]
    exact (ih.trans (List.dropWhile_sublist _)).cons_cons t

theorem le_of_mem_dropWhile (h : times.Pairwise (· ≤ ·)) {bound s : Nat}
    (hMem : s ∈ times.dropWhile fun s => s < bound) : bound ≤ s := by
  induction times with
  | nil => cases hMem
  | cons t rest ih =>
    obtain ⟨hFirst, hRest⟩ := List.pairwise_cons.mp h
    by_cases hBefore : t < bound
    · rw [List.dropWhile_cons_of_pos (by simpa using hBefore)] at hMem
      exact ih hRest hMem
    · rw [List.dropWhile_cons_of_neg (by simpa using hBefore)] at hMem
      rcases List.mem_cons.mp hMem with rfl | hMem
      · exact Nat.not_lt.mp hBefore
      · exact Nat.le_trans (Nat.not_lt.mp hBefore) (hFirst s hMem)

theorem apart_spaced (h : times.Pairwise (· ≤ ·)) : Apart window (spaced window times) := by
  induction times using spaced.induct window with
  | case1 => rw [spaced]; exact List.Pairwise.nil
  | case2 t rest ih =>
    have hRest := h.of_cons
    rw [spaced_cons]
    refine List.pairwise_cons.mpr ⟨fun s hs => ?_, ih (hRest.sublist (List.dropWhile_sublist _))⟩
    exact le_of_mem_dropWhile hRest ((spaced_sublist _ _).subset hs)

theorem sublist_dropWhile {p : Nat → Bool} (h : chosen.Sublist times)
    (hNone : ∀ s ∈ chosen, p s = false) : chosen.Sublist (times.dropWhile p) := by
  rw [← List.takeWhile_append_dropWhile (p := p) (l := times), List.sublist_append_iff] at h
  obtain ⟨first, second, rfl, hFirst, hSecond⟩ := h
  cases first with
  | nil => exact hSecond
  | cons s first =>
    have hTaken := List.mem_takeWhile_imp (hFirst.subset List.mem_cons_self)
    rw [hNone s List.mem_cons_self] at hTaken
    cases hTaken

/-- The exchange argument, place by place: no choice of times a window apart is ahead anywhere. -/
theorem spaced_earliest (h : times.Pairwise (· ≤ ·)) (hChosen : chosen.Sublist times)
    (hApart : Apart window chosen) :
    List.Forall₂ (· ≤ ·) ((spaced window times).take chosen.length) chosen := by
  induction times using spaced.induct window generalizing chosen with
  | case1 =>
    rw [List.sublist_nil.mp hChosen]
    exact .nil
  | case2 t rest ih =>
    cases chosen with
    | nil => exact .nil
    | cons c chosen =>
      obtain ⟨hFirst, hRest⟩ := List.pairwise_cons.mp h
      obtain ⟨hLater, hApart⟩ := List.pairwise_cons.mp hApart
      have hAfter : t ≤ c := by
        rcases List.mem_cons.mp (hChosen.subset List.mem_cons_self) with rfl | hMem
        · exact Nat.le_refl c
        · exact hFirst c hMem
      -- The first chosen is not before `t`, so the window of `t` holds none of the others.
      have hBehind : chosen.Sublist (rest.dropWhile fun s => s < t + window) := by
        refine sublist_dropWhile hChosen.of_cons_cons fun s hs => ?_
        exact decide_eq_false (by have := hLater s hs; omega)
      rw [spaced_cons, List.length_cons, List.take_succ_cons]
      exact .cons hAfter (ih (hRest.sublist (List.dropWhile_sublist _)) hBehind hApart)

theorem dropWhile_congr {p q : Nat → Bool} (h : ∀ s ∈ times, p s = q s) :
    times.dropWhile p = times.dropWhile q := by
  induction times with
  | nil => rfl
  | cons t rest ih =>
    obtain ⟨hFirst, hRest⟩ := List.forall_mem_cons.mp h
    rw [List.dropWhile_cons, List.dropWhile_cons, hFirst, ih hRest]

theorem attempts_pairwise (h : Chronological history) : (attempts history).Pairwise (· ≤ ·) :=
  List.pairwise_map.mpr (h.sublist List.filter_sublist)

theorem mem_attempts (h : t ∈ attempts history) : ∃ c ∈ history, c.1 = t := by
  obtain ⟨c, hMem, hTime⟩ := List.mem_map.mp h
  exact ⟨c, List.mem_of_mem_filter hMem, hTime⟩

theorem admissions_eq_spaced (h : Chronological history)
    (hPast : ∀ s ∈ l.last, ∀ c ∈ history, s ≤ c.1) (hReset : ∀ c ∈ history, c.2 ≠ .reset) :
    (l.record history).filterMap Entry.admission? =
      spaced l.window ((attempts history).dropWhile fun t => !l.isReady t) := by
  induction history generalizing l with
  | nil => rw [record, attempts]; simp [spaced]
  | cons first rest ih =>
    obtain ⟨t, c⟩ := first
    obtain ⟨hFirst, hRest⟩ := List.pairwise_cons.mp h
    obtain ⟨hNoReset, hNoResets⟩ := List.forall_mem_cons.mp hReset
    have hSame := ih hRest (fun s hs => (List.forall_mem_cons.mp (hPast s hs)).2) hNoResets
    cases c with
    | reset => exact absurd rfl hNoReset
    | ready => exact hSame
    | acquire =>
      have hAttempts : attempts ((t, .acquire) :: rest) = t :: attempts rest := rfl
      rw [hAttempts, record, List.filterMap_cons]
      cases hReady : l.isReady t with
      | false =>
        rw [List.dropWhile_cons_of_pos (by simp [hReady])]
        simpa [call, tryAcquire_of_not_isReady hReady, Entry.admission?] using hSame
      | true =>
        rw [List.dropWhile_cons_of_neg (by simp [hReady]), spaced_cons]
        -- Behind `t` it is not ready for the claims within the window of `t`. Here the clock counts:
        -- with a window of zero it would be ready at an earlier instant as well.
        have hNext := ih (l := { l with last := some t }) hRest (by simpa using hFirst) hNoResets
        have hBlocked : ∀ s ∈ attempts rest,
            (!({ l with last := some t } : RateLimiter).isReady s) = decide (s < t + l.window) := by
          intro s hs
          obtain ⟨d, hMem, rfl⟩ := mem_attempts hs
          have hFree : ({ l with last := some t } : RateLimiter).isReady d.1 = true ↔
              ∀ s ∈ some t, s + l.window ≤ d.1 := isReady_iff (by simpa using hFirst d hMem)
          rw [Bool.not_eq_eq_eq_not, Bool.eq_iff_iff, hFree]
          simp
        rw [dropWhile_congr hBlocked] at hNext
        simpa [call, tryAcquire_of_isReady hReady, Entry.admission?] using hNext

theorem admitted_eq_spaced (h : Chronological history) (hReset : ∀ c ∈ history, c.2 ≠ .reset) :
    admitted ((ofWindow window).record history) = spaced window (attempts history) := by
  have hEntries : ∀ e ∈ (ofWindow window).record history, e.call ≠ .reset :=
    fun e hMem => hReset _ (mem_record hMem)
  have hReady : (attempts history).dropWhile (fun t => !(ofWindow window).isReady t) =
      attempts history := by
    simp [isReady, ofWindow]
  rw [admitted, List.rtakeWhile_eq_self_iff.mpr (by simpa using hEntries),
    admissions_eq_spaced h (by simp [ofWindow]) hReset, hReady]
  rfl

/-- The history law of a limiter: what is admitted, what a question foretells, what leaves no trace,
and which claims are admitted as long as nothing is reset. -/
theorem admits_by_history (window : Nat) :
    (∀ history t, Chronological (history ++ [(t, .acquire)]) →
      ((((ofWindow window).run history).tryAcquire t).1 = true ↔
        ∀ s ∈ (admitted ((ofWindow window).record history)).getLast?, s + window ≤ t)) ∧
    (∀ history t, ((ofWindow window).run history).isReady t =
      (((ofWindow window).run history).tryAcquire t).1) ∧
    (∀ before t c after,
      (c = .ready ∨ c = .acquire ∧ (((ofWindow window).run before).tryAcquire t).1 = false) →
        ((ofWindow window).record (before ++ (t, c) :: after)).drop (before.length + 1) =
          ((ofWindow window).record (before ++ after)).drop before.length) ∧
    ∀ history, Chronological history → (∀ c ∈ history, c.2 ≠ .reset) →
      Apart window (admitted ((ofWindow window).record history)) ∧
      admitted ((ofWindow window).record history) = spaced window (attempts history) ∧
      ∀ chosen : List Nat, chosen.Sublist (attempts history) → Apart window chosen →
        List.Forall₂ (· ≤ ·)
          ((admitted ((ofWindow window).record history)).take chosen.length) chosen := by
  refine ⟨fun history t => tryAcquire_run_iff, fun history t => (tryAcquire_fst _ _).symm,
    fun before t c after => record_without, fun history hClock hReset => ?_⟩
  have hOrder := attempts_pairwise hClock
  rw [admitted_eq_spaced hClock hReset]
  exact ⟨apart_spaced hOrder, rfl, fun chosen => spaced_earliest hOrder⟩

/-- A claim at the very end of a window, one right behind a reset, one without effect, and the
claims that are admitted of a row. -/
theorem admits_by_history_boundary :
    let five := ofWindow 5
    let row : List (Nat × Call) :=
      [(0, .acquire), (4, .acquire), (5, .ready), (5, .acquire), (9, .acquire), (10, .acquire)]
    (Chronological [(0, .acquire), (4, .acquire), (5, .acquire)] ∧
      ((five.run [(0, .acquire), (4, .acquire)]).tryAcquire 5).1 = true) ∧
    (Chronological [(0, .acquire), (3, .reset), (3, .acquire)] ∧
      ((five.run [(0, .acquire), (3, .reset)]).tryAcquire 3).1 = true) ∧
    (((five.run [(0, .acquire)]).tryAcquire 4).1 = false ∧
      (five.record [(0, .acquire), (4, .acquire), (5, .acquire)]).drop 2 =
        (five.record [(0, .acquire), (5, .acquire)]).drop 1) ∧
    (Chronological row ∧ (∀ c ∈ row, c.2 ≠ .reset) ∧ admitted (five.record row) = [0, 5, 10] ∧
      [4, 9].Sublist (attempts row) ∧ Apart 5 [4, 9] ∧
      List.Forall₂ (· ≤ ·) ((admitted (five.record row)).take 2) [4, 9]) := by
  intro five row
  obtain ⟨hAdmits, _, hWithout, hRow⟩ := admits_by_history 5
  have hClock : Chronological row := by decide
  have hReset : ∀ c ∈ row, c.2 ≠ .reset := by decide
  have hRefused : ((five.run [(0, .acquire)]).tryAcquire 4).1 = false := by decide
  have hSublist : [4, 9].Sublist (attempts row) := by decide
  obtain ⟨_, hSpaced, hEarliest⟩ := hRow row hClock hReset
  refine ⟨⟨by decide, ?_⟩, ⟨by decide, ?_⟩, ⟨hRefused, ?_⟩, hClock, hReset, ?_, hSublist, by decide,
    hEarliest [4, 9] hSublist (by decide)⟩
  · exact (hAdmits [(0, .acquire), (4, .acquire)] 5 (by decide)).mpr (by decide)
  · exact (hAdmits [(0, .acquire), (3, .reset)] 3 (by decide)).mpr (by decide)
  · exact hWithout [(0, .acquire)] 4 .acquire [(5, .acquire)] (.inr ⟨rfl, hRefused⟩)
  · rw [hSpaced]
    simp [row, attempts, spaced]

end GatewayTelemetry.RateLimiter
