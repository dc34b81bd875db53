import GatewayTelemetry.Channel
import Mathlib.Data.List.Induction

/-! # What the event channel conserves

A run of the channel is any interleaving of sends, by any of its senders, with what the receiver
does. `Conserves` relates the channel to the answers of its run; every action keeps it. So no event
is lost or doubled between its acceptance and the receiver, unless the receiver is dropped.
-/

namespace GatewayTelemetry.Channel

/-- The senders are told apart by number. They share the queue and both counters. -/
inductive Action where
  | send (sender : Nat) (e : Event)
  | receive
  | close
  | drop

inductive Answer where
  | sent (e : Event) (result : Except AgentError Unit)
  | received (r : Received)
  | done

def Action.sends : Action → Bool
  | send _ _ => true
  | _ => false

def Answer.accepted? : Answer → Option Event
  | sent e (.ok _) => some e
  | _ => none

def Answer.refused? : Answer → Option AgentError
  | sent _ (.error error) => some error
  | _ => none

def Answer.received? : Answer → Option Event
  | received (.event e) => some e
  | _ => none

def perform (c : Channel) : Action → Channel × Answer
  | .send _ e => ((c.send e).1, .sent e (c.send e).2)
  | .receive => (c.receive.1, .received c.receive.2)
  | .close => (c.close, .done)
  | .drop => (c.drop, .done)

def after (c : Channel) (actions : List Action) : Channel :=
  actions.foldl (fun c a => (c.perform a).1) c

def answers (c : Channel) : List Action → List Answer
  | [] => []
  | a :: rest => (c.perform a).2 :: (c.perform a).1.answers rest

theorem after_concat (c : Channel) (past : List Action) (a : Action) :
    c.after (past ++ [a]) = ((c.after past).perform a).1 := by
  simp [after]

theorem answers_concat (c : Channel) (past : List Action) (a : Action) :
    c.answers (past ++ [a]) = c.answers past ++ [((c.after past).perform a).2] := by
  induction past generalizing c with
  | nil => rfl
  | cons b rest ih => exact congrArg (_ :: ·) (ih _)

variable {c : Channel} {e : Event} {error : AgentError} {t t' : Target}

theorem refusal?_eq_closed_iff : c.refusal? t = some .channelClosed ↔ c.receiver ≠ .opened := by
  unfold refusal?
  split
  · simpa
  · split <;> simp_all

theorem refusal?_eq_full_iff :
    c.refusal? t = some (.channelFull t') ↔
      t' = t ∧ c.receiver = .opened ∧ c.capacity ≤ c.queue.length := by
  unfold refusal?
  split
  · simp_all
  · split <;> simp_all [eq_comm]

theorem refusal?_eq_none_iff :
    c.refusal? t = none ↔ c.receiver = .opened ∧ c.queue.length < c.capacity := by
  unfold refusal?
  split
  · simp_all
  · split <;> simp_all

theorem send_of_refusal (h : c.refusal? e.target = some error) :
    c.send e = ({ c with lostWord := c.lostWord + 1 }, .error error) := by
  simp only [send, h]

theorem send_of_room (h : c.refusal? e.target = none) :
    c.send e =
      ({ c with queue := c.queue ++ [e], publishedWord := c.publishedWord + 1 }, .ok ()) := by
  simp only [send, h]

theorem send_eq_error_iff : (c.send e).2 = .error error ↔ c.refusal? e.target = some error := by
  cases hRefusal : c.refusal? e.target with
  | none => simp [send_of_room hRefusal]
  | some error' => simp [send_of_refusal hRefusal]

theorem send_eq_ok_iff : (c.send e).2 = .ok () ↔ c.refusal? e.target = none := by
  cases hRefusal : c.refusal? e.target with
  | none => simp [send_of_room hRefusal]
  | some error => simp [send_of_refusal hRefusal]

theorem receive_of_dropped (h : c.receiver = .dropped) : c.receive = (c, .disconnected) := by
  simp only [receive, h]

theorem receive_of_queued {rest : List Event} (h : c.receiver ≠ .dropped)
    (hQueue : c.queue = e :: rest) : c.receive = ({ c with queue := rest }, .event e) := by
  cases hReceiver : c.receiver with
  | dropped => exact absurd hReceiver h
  | opened | closed => simp only [receive, hReceiver, hQueue]

theorem receive_of_nil (h : c.receiver ≠ .dropped) (hQueue : c.queue = []) :
    c.receive = (c, if c.receiver = .closed then .disconnected else .empty) := by
  cases hReceiver : c.receiver with
  | dropped => exact absurd hReceiver h
  | opened | closed => simp [receive, hReceiver, hQueue]

/-- The channel of a requested capacity after some actions, with the events that it accepted and
handed out and the errors with which it refused others. -/
structure Conserves (requested : Nat) (actions : List Action) (accepted received : List Event)
    (refused : List AgentError) (c : Channel) : Prop where
  capacity : c.capacity = max requested 1
  room : c.queue.length ≤ c.capacity
  opened : c.receiver = .opened ↔ .close ∉ actions ∧ .drop ∉ actions
  dropped : c.receiver = .dropped ↔ .drop ∈ actions
  taken : received <+: accepted
  waiting : c.receiver ≠ .dropped → accepted = received ++ c.queue
  published : c.publishedWord = .ofNat accepted.length
  lost : c.lostWord = .ofNat refused.length
  tried : accepted.length + refused.length = actions.countP Action.sends

theorem conserves_ofCapacity (requested : Nat) :
    Conserves requested [] [] [] [] (ofCapacity requested) where
  capacity := rfl
  room := Nat.zero_le _
  opened := by simp [ofCapacity]
  dropped := by simp [ofCapacity]
  taken := List.nil_prefix
  waiting _ := rfl
  published := rfl
  lost := rfl
  tried := rfl

namespace Conserves

variable {requested : Nat} {past : List Action} {accepted received : List Event}
  {refused : List AgentError}

theorem sendRefused (h : Conserves requested past accepted received refused c) (sender : Nat)
    (e : Event) (error : AgentError) :
    Conserves requested (past ++ [.send sender e]) accepted received (refused ++ [error])
      { c with lostWord := c.lostWord + 1 } where
  capacity := h.capacity
  room := h.room
  opened := by simpa using h.opened
  dropped := by simpa using h.dropped
  taken := h.taken
  waiting := h.waiting
  published := h.published
  lost := by simp [h.lost, UInt64.ofNat_add]
  tried := by simp [← h.tried, Action.sends, Nat.add_assoc]

theorem sendAccepted (h : Conserves requested past accepted received refused c) (sender : Nat)
    (e : Event) (hRoom : c.queue.length < c.capacity) :
    Conserves requested (past ++ [.send sender e]) (accepted ++ [e]) received refused
      { c with queue := c.queue ++ [e], publishedWord := c.publishedWord + 1 } where
  capacity := h.capacity
  room := by simpa using Nat.succ_le_of_lt hRoom
  opened := by simpa using h.opened
  dropped := by simpa using h.dropped
  taken := h.taken.trans (List.prefix_append accepted [e])
  waiting hKept := by rw [h.waiting hKept, List.append_assoc]
  published := by simp [h.published, UInt64.ofNat_add]
  lost := h.lost
  tried := by simp [← h.tried, Action.sends, Nat.add_right_comm]

theorem receiveQueued (h : Conserves requested past accepted received refused c) {rest : List Event}
    (hKept : c.receiver ≠ .dropped) (hQueue : c.queue = e :: rest) :
    Conserves requested (past ++ [.receive]) accepted (received ++ [e]) refused
      { c with queue := rest } := by
  have hWaiting : accepted = received ++ [e] ++ rest := by simp [h.waiting hKept, hQueue]
  have hRoom := h.room
  rw [hQueue, List.length_cons] at hRoom
  exact
    { capacity := h.capacity
      room := Nat.le_of_succ_le hRoom
      opened := by simpa using h.opened
      dropped := by simpa using h.dropped
      taken := hWaiting ▸ List.prefix_append _ rest
      waiting := fun _ => hWaiting
      published := h.published
      lost := h.lost
      tried := by simpa [Action.sends] using h.tried }

theorem turn (h : Conserves requested past accepted received refused c) {a : Action}
    {r : Receiver} {queue : List Event} (hSends : a.sends = false)
    (hOpened : r = .opened ↔ c.receiver = .opened ∧ a ≠ .close ∧ a ≠ .drop)
    (hDropped : r = .dropped ↔ c.receiver = .dropped ∨ a = .drop)
    (hQueue : r ≠ .dropped → queue = c.queue) (hRoom : queue.length ≤ c.queue.length) :
    Conserves requested (past ++ [a]) accepted received refused
      { c with receiver := r, queue := queue } where
  capacity := h.capacity
  room := Nat.le_trans hRoom h.room
  opened := by
    rw [hOpened, h.opened]
    grind
  dropped := by
    rw [hDropped, h.dropped]
    grind
  taken := h.taken
  waiting hKept := by
    rw [hQueue hKept]
    exact h.waiting fun hGone => hKept (hDropped.mpr (.inl hGone))
  published := h.published
  lost := h.lost
  tried := by simpa [hSends] using h.tried

theorem perform (h : Conserves requested past accepted received refused c) (a : Action) :
    Conserves requested (past ++ [a]) (accepted ++ (c.perform a).2.accepted?.toList)
      (received ++ (c.perform a).2.received?.toList) (refused ++ (c.perform a).2.refused?.toList)
      (c.perform a).1 := by
  cases a with
  | send sender e =>
    cases hRefusal : c.refusal? e.target with
    | some error =>
      simpa [Channel.perform, send_of_refusal hRefusal, Answer.accepted?, Answer.received?,
        Answer.refused?] using h.sendRefused sender e error
    | none =>
      simpa [Channel.perform, send_of_room hRefusal, Answer.accepted?, Answer.received?,
        Answer.refused?] using h.sendAccepted sender e (refusal?_eq_none_iff.mp hRefusal).2
  | receive =>
    have hNothing := h.turn (a := .receive) (r := c.receiver) rfl (by simp) (by simp)
      (fun _ => rfl) (Nat.le_refl _)
    by_cases hDropped : c.receiver = .dropped
    · simpa [Channel.perform, receive_of_dropped hDropped, Answer.accepted?, Answer.received?,
        Answer.refused?] using hNothing
    · cases hQueue : c.queue with
      | nil =>
        rw [Channel.perform, receive_of_nil hDropped hQueue]
        split <;> simpa [Answer.accepted?, Answer.received?, Answer.refused?] using hNothing
      | cons e rest =>
        simpa [Channel.perform, receive_of_queued hDropped hQueue, Answer.accepted?,
          Answer.received?, Answer.refused?] using h.receiveQueued hDropped hQueue
  | close =>
    have hClose : c.close =
        { c with receiver := if c.receiver = .opened then .closed else c.receiver } := by
      unfold Channel.close
      split <;> simp_all
    simp only [Channel.perform, Answer.accepted?, Answer.received?, Answer.refused?,
      Option.toList_none, List.append_nil, hClose]
    exact h.turn rfl (by split <;> simp_all) (by split <;> simp_all) (fun _ => rfl) (Nat.le_refl _)
  | drop =>
    simp only [Channel.perform, Answer.accepted?, Answer.received?, Answer.refused?,
      Option.toList_none, List.append_nil]
    exact h.turn rfl (by simp) (by simp) (fun hKept => absurd rfl hKept) (Nat.zero_le _)

end Conserves

theorem conserves (requested : Nat) (actions : List Action) :
    let as := (ofCapacity requested).answers actions
    Conserves requested actions (as.filterMap Answer.accepted?) (as.filterMap Answer.received?)
      (as.filterMap Answer.refused?) ((ofCapacity requested).after actions) := by
  induction actions using List.reverseRecOn with
  | nil => exact conserves_ofCapacity requested
  | append_singleton past a ih =>
    intro as
    simp only [as, after_concat, answers_concat, List.filterMap_append]
    exact ih.perform a

/-- A receiver that has not been dropped gets all that is queued, in order. -/
theorem answers_receives (h : c.receiver ≠ .dropped) :
    c.answers (List.replicate c.queue.length .receive ++ [.receive]) =
      c.queue.map (fun e => .received (.event e)) ++
        [.received (if c.receiver = .closed then .disconnected else .empty)] := by
  generalize hQueue : c.queue = queue
  induction queue generalizing c with
  | nil => simp [answers, perform, receive_of_nil h hQueue]
  | cons e rest ih =>
    have hRest := ih (c := { c with queue := rest }) h rfl
    simp [List.replicate_succ, answers, perform, receive_of_queued h hQueue, hRest]

theorem receive_eq_event_iff (h : c.receiver ≠ .dropped) :
    c.receive.2 = .event e ↔ [e] <+: c.queue := by
  cases hQueue : c.queue with
  | nil =>
    rw [receive_of_nil h hQueue]
    split <;> simp
  | cons e' rest => simp [receive_of_queued h hQueue, eq_comm]

theorem receive_eq_disconnected_iff (h : c.receiver ≠ .dropped) :
    c.receive.2 = .disconnected ↔ c.receiver = .closed ∧ c.queue = [] := by
  cases hQueue : c.queue with
  | nil => simp [receive_of_nil h hQueue]
  | cons e rest => simp [receive_of_queued h hQueue]

/-- What is received begins what was accepted, and until the receiver is dropped, the rest of it is
queued, in order and within the capacity. A send fails as closed once the receiver has stopped in
either way, else as full when the queue is, else it succeeds. A closed receiver still gets all that
is queued and is disconnected only then. Each send counts once: as published or as lost. The counts
are words, so they are the numbers of these up to multiples of their size. -/
theorem run_conserves (requested : Nat) (actions : List Action) :
    let c := (ofCapacity requested).after actions
    let as := (ofCapacity requested).answers actions
    let accepted := as.filterMap Answer.accepted?
    let received := as.filterMap Answer.received?
    let refused := as.filterMap Answer.refused?
    received <+: accepted ∧
      (.drop ∉ actions → accepted = received ++ c.queue ∧
        c.published = (received.length + c.queue.length) % UInt64.size) ∧
      c.queue.length ≤ max requested 1 ∧
      (∀ sender e, ∃ result, (c.perform (.send sender e)).2 = .sent e result ∧
        (result = .error .channelClosed ↔ .close ∈ actions ∨ .drop ∈ actions) ∧
        (∀ t, result = .error (.channelFull t) ↔ t = e.target ∧
          .close ∉ actions ∧ .drop ∉ actions ∧ c.queue.length = max requested 1) ∧
        (result = .ok () ↔
          .close ∉ actions ∧ .drop ∉ actions ∧ c.queue.length < max requested 1)) ∧
      (.drop ∉ actions →
        (∀ e, c.receive.2 = .event e ↔ received ++ [e] <+: accepted) ∧
        (c.receive.2 = .disconnected ↔ .close ∈ actions ∧ received = accepted) ∧
        (.close ∈ actions →
          c.answers (List.replicate c.queue.length .receive ++ [.receive]) =
            c.queue.map (fun e => .received (.event e)) ++ [.received .disconnected])) ∧
      c.published = accepted.length % UInt64.size ∧ c.lost = refused.length % UInt64.size ∧
      accepted.length + refused.length = actions.countP Action.sends := by
  intro c as accepted received refused
  have h : Conserves requested actions accepted received refused c := conserves requested actions
  have hClosed : c.receiver = .closed ↔ .close ∈ actions ∧ .drop ∉ actions := by
    have hOpened := h.opened
    have hDropped := h.dropped
    cases hReceiver : c.receiver <;> simp_all
  have hKept : .drop ∉ actions → c.receiver ≠ .dropped := fun hDrop hGone =>
    hDrop (h.dropped.mp hGone)
  have hRoom : c.queue.length ≤ max requested 1 := h.capacity ▸ h.room
  have hPublished : c.published = accepted.length % UInt64.size := congrArg UInt64.toNat h.published
  have hLost : c.lost = refused.length % UInt64.size := congrArg UInt64.toNat h.lost
  refine ⟨h.taken, ?_, hRoom, ?_, ?_, hPublished, hLost, h.tried⟩
  · intro hDrop
    have hWaiting := h.waiting (hKept hDrop)
    exact ⟨hWaiting, by rw [hPublished, hWaiting, List.length_append]⟩
  · intro sender e
    refine ⟨(c.send e).2, rfl, ?_, ?_, ?_⟩
    · rw [send_eq_error_iff, refusal?_eq_closed_iff, Ne, h.opened]
      tauto
    · intro t
      rw [send_eq_error_iff, refusal?_eq_full_iff, h.opened, h.capacity, and_assoc]
      have hFull : max requested 1 ≤ c.queue.length ↔ c.queue.length = max requested 1 :=
        ⟨fun hLe => Nat.le_antisymm hRoom hLe, fun hSame => Nat.le_of_eq hSame.symm⟩
      rw [hFull]
    · rw [send_eq_ok_iff, refusal?_eq_none_iff, h.opened, h.capacity, and_assoc]
  · intro hDrop
    have hWaiting := h.waiting (hKept hDrop)
    refine ⟨?_, ?_, ?_⟩
    · intro e
      rw [receive_eq_event_iff (hKept hDrop), hWaiting, List.prefix_append_right_inj]
    · rw [receive_eq_disconnected_iff (hKept hDrop), hClosed, hWaiting, List.self_eq_append_right]
      tauto
    · intro hClose
      rw [answers_receives (hKept hDrop), if_pos (hClosed.mpr ⟨hClose, hDrop⟩)]

end GatewayTelemetry.Channel
