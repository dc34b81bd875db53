import GatewayTelemetry.Error

/-! # The event channel

A bounded queue between the collection cycles and one consumer. Sending never waits: an event
that finds no room is dropped and counted. A closed receiver takes no new events but still hands
out those queued; a dropped one loses them. The counts are words and wrap.
-/

namespace GatewayTelemetry

inductive Receiver where
  | opened
  | closed
  | dropped
  deriving Repr, DecidableEq

structure Channel where
  capacity : Nat
  queue : List Event
  receiver : Receiver
  publishedWord : UInt64
  lostWord : UInt64

namespace Channel

def published (c : Channel) : Nat := c.publishedWord.toNat

def lost (c : Channel) : Nat := c.lostWord.toNat

/-- A requested capacity of zero acts as one. -/
def ofCapacity (requested : Nat) : Channel := ⟨max requested 1, [], .opened, 0, 0⟩

inductive Received where
  | event (e : Event)
  | empty
  | disconnected

def refusal? (c : Channel) (target : Target) : Option AgentError :=
  if c.receiver ≠ .opened then some .channelClosed
  else if c.capacity ≤ c.queue.length then some (.channelFull target)
  else none

def send (c : Channel) (e : Event) : Channel × Except AgentError Unit :=
  match c.refusal? e.target with
  | some error => ({ c with lostWord := c.lostWord + 1 }, .error error)
  | none => ({ c with queue := c.queue ++ [e], publishedWord := c.publishedWord + 1 }, .ok ())

def sendAll (c : Channel) (events : List Event) : Channel :=
  events.foldl (fun c e => (c.send e).1) c

def receive (c : Channel) : Channel × Received :=
  match c.receiver, c.queue with
  | .dropped, _ => (c, .disconnected)
  | .opened, [] => (c, .empty)
  | .closed, [] => (c, .disconnected)
  | _, e :: rest => ({ c with queue := rest }, .event e)

def close (c : Channel) : Channel :=
  match c.receiver with
  | .opened => { c with receiver := .closed }
  | _ => c

def drop (c : Channel) : Channel := { c with receiver := .dropped, queue := [] }

def drain (c : Channel) : Channel × List Event := ({ c with queue := [] }, c.queue)

end Channel

end GatewayTelemetry
