import GatewayTelemetry.Proofs.Cache.EndpointWrite

/-! # What the cache refuses

A write to a node is refused when the node is not cached, and a write to an endpoint when its
timestamp is not finite. Nothing else is refused, and what is refused leaves no trace: no entry
made for it, no point appended, and none dropped to make room.
-/

namespace GatewayTelemetry.Cache

def refusal? (c : Cache) : Operation → Option AgentError
  | .setAddress name _ | .setCpu name _ | .setMemory name _ | .setNetwork name _ =>
    if name ∈ c.names then none else some (.nodeNotFound name)
  | .appendLatency _ _ timestamp | .appendSent _ _ timestamp | .appendReceived _ _ timestamp
  | .record _ ⟨timestamp, _, _, _⟩ =>
    if timestamp.isFinite then none else some (.record (.timestampNotFinite timestamp))
  | _ => none

/-- An outcome that is the refusal, with the cache as it was, or an answer if nothing is refused. -/
def Heeds (c : Cache) (refusal : Option AgentError) (outcome : Cache × Except AgentError Answer) :
    Prop :=
  match refusal with
  | some e => outcome = (c, .error e)
  | none => ∃ answer, outcome.2 = .ok answer

theorem modifyFirst_eq_none_iff {name : String} {f : NodeRecord → NodeRecord}
    {nodes : List NodeRecord} : modifyFirst name f nodes = none ↔ name ∉ nodes.map (·.name) := by
  refine ⟨?_, modifyFirst_of_not_mem⟩
  induction nodes with
  | nil => exact fun _ => List.not_mem_nil
  | cons n rest ih =>
    intro h
    rw [modifyFirst] at h
    split at h
    · cases h
    · rename_i hOther
      rw [List.map_cons, List.mem_cons, not_or]
      exact ⟨Ne.symm hOther, ih (Option.map_eq_none_iff.mp h)⟩

theorem settle_modifyNode_heeds (c : Cache) (name : String) (f : NodeRecord → NodeRecord) :
    c.Heeds (if name ∈ c.names then none else some (.nodeNotFound name))
      (c.settle (c.modifyNode name f)) := by
  rw [modifyNode]
  cases hModified : modifyFirst name f c.nodes with
  | none =>
    have hMissing : name ∉ c.names := modifyFirst_eq_none_iff.mp hModified
    rw [if_neg hMissing]
    rfl
  | some nodes =>
    have hMem : name ∈ c.names := by
      by_contra hMissing
      rw [modifyFirst_eq_none_iff.mpr hMissing] at hModified
      cases hModified
    rw [if_pos hMem]
    exact ⟨.done, rfl⟩

theorem Lands.heeds {c : Cache} {w : EndpointWrite} {outcome : Cache × Except AgentError Answer}
    (h : c.Lands w outcome) :
    c.Heeds (if w.timestamp.isFinite then none else some (.record w.refusal)) outcome := by
  rcases h with ⟨hFinite, _, hOk⟩ | ⟨hInfinite, hOutcome⟩
  · rw [if_pos hFinite]
    cases hAnswer : outcome.2 with
    | ok answer => exact ⟨answer, hAnswer⟩
    | error e => simp [hAnswer, Except.isOk, Except.toBool] at hOk
  · rw [hInfinite]
    exact hOutcome

theorem refusal?_of_write (c : Cache) {op : Operation} {w : EndpointWrite}
    (h : op.write? = some w) :
    c.refusal? op = if w.timestamp.isFinite then none else some (.record w.refusal) := by
  cases op <;> cases h <;> rfl

theorem apply_heeds (c : Cache) (op : Operation) : c.Heeds (c.refusal? op) (c.apply op) := by
  cases hWrite : op.write? with
  | some w =>
    rw [refusal?_of_write c hWrite]
    exact (c.apply_write hWrite).heeds
  | none =>
    cases op with
    | setAddress | setCpu | setMemory | setNetwork => exact c.settle_modifyNode_heeds _ _
    | appendLatency | appendSent | appendReceived | record => cases hWrite
    | upsert | node | count | nodes | reconcile | endpoint | deleteEndpoint | clearEndpoints
    | endpoints | clear => exact ⟨_, rfl⟩

/-- An operation fails exactly with its refusal, and a failed one changes no node, no endpoint and
no series. -/
theorem refused_unchanged (c : Cache) (op : Operation) :
    (∀ e, (c.apply op).2 = .error e ↔ c.refusal? op = some e) ∧
      ∀ e, (c.apply op).2 = .error e → (c.apply op).1 = c := by
  have hHeeds := c.apply_heeds op
  cases hRefusal : c.refusal? op with
  | some refusal =>
    rw [hRefusal] at hHeeds
    rw [show c.apply op = (c, .error refusal) from hHeeds]
    exact ⟨fun e => by rw [Except.error.injEq, Option.some.injEq], fun _ _ => rfl⟩
  | none =>
    rw [hRefusal] at hHeeds
    obtain ⟨answer, hOk⟩ := hHeeds
    rw [hOk]
    exact ⟨fun e => ⟨nofun, nofun⟩, nofun⟩

/-- A reading without a time for an endpoint with full series, and a latency at no finite time for
one that is not there. -/
theorem refused_unchanged_full :
    let full : Series UInt64 :=
      ⟨60, List.replicate 60 (1, 7), Nat.succ_pos 59, List.length_replicate.le⟩
    let c : Cache :=
      ⟨[.fresh "worker"], Keyed.ofList [("cluster-b", ⟨"cluster-b", .standard, full, full⟩)]⟩
    let reading : Operation := .record "cluster-b" ⟨0 / 0, 1, 2, some (1 / 0)⟩
    let latency : Operation := .appendLatency "cluster-c" 1.5 (1 / 0)
    (c.apply reading).2 = .error (.record (.timestampNotFinite (0 / 0))) ∧
      (c.apply reading).1 = c ∧
      (c.apply latency).2 = .error (.record (.timestampNotFinite (1 / 0))) ∧
      (c.apply latency).1 = c := by
  intro full c reading latency
  have hTimeless : (0 / 0 : Float).isFinite = false := by decide +kernel
  have hEndless : (1 / 0 : Float).isFinite = false := by decide +kernel
  have hReading : (c.apply reading).2 = .error (.record (.timestampNotFinite (0 / 0))) :=
    ((refused_unchanged c reading).1 _).mpr (by simp [reading, refusal?, hTimeless])
  have hLatency : (c.apply latency).2 = .error (.record (.timestampNotFinite (1 / 0))) :=
    ((refused_unchanged c latency).1 _).mpr (by simp [latency, refusal?, hEndless])
  exact ⟨hReading, (refused_unchanged c reading).2 _ hReading, hLatency,
    (refused_unchanged c latency).2 _ hLatency⟩

end GatewayTelemetry.Cache
