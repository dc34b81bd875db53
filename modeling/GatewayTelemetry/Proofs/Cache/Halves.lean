import GatewayTelemetry.Proofs.Cache.InPlace
import GatewayTelemetry.Proofs.Cache.Transcript

/-! # The two halves of the cache

But for the clearing of everything, an operation works on one half of the cache, the nodes or the
endpoints, and neither looks at the other half nor changes it. So when two parties keep to one half
each, both get the answers that they would get alone, in whatever order their operations are run.
-/

namespace GatewayTelemetry.Cache

inductive Half where
  | nodes
  | endpoints
  deriving DecidableEq

def Operation.half? : Operation → Option Half
  | upsert _ | node _ | count | nodes | setAddress _ _ | setCpu _ _ | setMemory _ _
  | setNetwork _ _ | reconcile _ => some .nodes
  | appendLatency _ _ _ | appendSent _ _ _ | appendReceived _ _ _ | record _ _ | endpoint _
  | deleteEndpoint _ | clearEndpoints | endpoints => some .endpoints
  | clear => none

def Agree (half : Half) (c d : Cache) : Prop :=
  match half with
  | .nodes => c.nodes = d.nodes
  | .endpoints => c.endpoints = d.endpoints

theorem settle_map (c : Cache) (r : Except AgentError Cache) (f : Cache → Cache) :
    (f c).settle (r.map f) = (f (c.settle r).1, (c.settle r).2) := by
  cases r <;> rfl

theorem modifyNode_with_endpoints (c : Cache) (m : EndpointMap) (name : String)
    (f : NodeRecord → NodeRecord) :
    { c with endpoints := m }.modifyNode name f =
      (c.modifyNode name f).map fun c' => { c' with endpoints := m } := by
  unfold modifyNode
  dsimp only
  cases modifyFirst name f c.nodes <;> rfl

theorem writeEndpoint_with_nodes (c : Cache) (ns : List NodeRecord) (name : String)
    (append : Endpoint → Except RecordError Endpoint) :
    { c with nodes := ns }.writeEndpoint name append =
      (c.writeEndpoint name append).map fun c' => { c' with nodes := ns } := by
  unfold writeEndpoint
  dsimp only
  cases append (EndpointMap.entry c.endpoints name).1 <;> rfl

theorem apply_with_endpoints {op : Operation} (h : op.half? = some .nodes) (c : Cache)
    (m : EndpointMap) :
    { c with endpoints := m }.apply op =
      ({ (c.apply op).1 with endpoints := m }, (c.apply op).2) := by
  have hModify : ∀ name f,
      { c with endpoints := m }.settle ({ c with endpoints := m }.modifyNode name f) =
        ({ (c.settle (c.modifyNode name f)).1 with endpoints := m },
          (c.settle (c.modifyNode name f)).2) := by
    intro name f
    rw [modifyNode_with_endpoints]
    exact c.settle_map _ fun c' => { c' with endpoints := m }
  cases op with
  | upsert name =>
    simp only [apply, upsert, node?]
    cases c.nodes.find? fun n => n.name == name <;> rfl
  | setAddress | setCpu | setMemory | setNetwork => exact hModify _ _
  | node | count | nodes | reconcile => rfl
  | appendLatency | appendSent | appendReceived | record | endpoint | deleteEndpoint
  | clearEndpoints | endpoints | clear => cases h

theorem apply_with_nodes {op : Operation} (h : op.half? = some .endpoints) (c : Cache)
    (ns : List NodeRecord) :
    { c with nodes := ns }.apply op = ({ (c.apply op).1 with nodes := ns }, (c.apply op).2) := by
  have hWrite : ∀ name append,
      { c with nodes := ns }.settle ({ c with nodes := ns }.writeEndpoint name append) =
        ({ (c.settle (c.writeEndpoint name append)).1 with nodes := ns },
          (c.settle (c.writeEndpoint name append)).2) := by
    intro name append
    rw [writeEndpoint_with_nodes]
    exact c.settle_map _ fun c' => { c' with nodes := ns }
  cases op with
  | appendLatency =>
    rw [apply_appendLatency, apply_appendLatency]
    exact hWrite _ _
  | appendSent =>
    rw [apply_appendSent, apply_appendSent]
    exact hWrite _ _
  | appendReceived =>
    rw [apply_appendReceived, apply_appendReceived]
    exact hWrite _ _
  | record name s =>
    simp only [apply_record, record, writeEndpoint_with_nodes]
    cases c.writeEndpoint name (appendSample s) <;> rfl
  | endpoint | deleteEndpoint | clearEndpoints | endpoints => rfl
  | upsert | node | count | nodes | setAddress | setCpu | setMemory | setNetwork | reconcile
  | clear => cases h

variable {half other : Half} {c d : Cache} {op : Operation}

theorem Agree.apply (hAgree : Agree half c d) (h : op.half? = some half) :
    (c.apply op).2 = (d.apply op).2 ∧ Agree half (c.apply op).1 (d.apply op).1 := by
  cases half with
  | nodes =>
    have hSame : c = { d with endpoints := c.endpoints } := by
      rw [← show c.nodes = d.nodes from hAgree]
    rw [hSame, apply_with_endpoints h]
    exact ⟨rfl, rfl⟩
  | endpoints =>
    have hSame : c = { d with nodes := c.nodes } := by
      rw [← show c.endpoints = d.endpoints from hAgree]
    rw [hSame, apply_with_nodes h]
    exact ⟨rfl, rfl⟩

theorem agree_apply (c : Cache) (h : op.half? = some other) (hOther : other ≠ half) :
    Agree half (c.apply op).1 c := by
  cases other with
  | nodes =>
    have hKept := congrArg (fun r => r.1.endpoints) (apply_with_endpoints h c c.endpoints)
    cases half with
    | nodes => exact absurd rfl hOther
    | endpoints => exact hKept
  | endpoints =>
    have hKept := congrArg (fun r => r.1.nodes) (apply_with_nodes h c c.nodes)
    cases half with
    | nodes => exact hKept
    | endpoints => exact absurd rfl hOther

/-- Two lists run through each other, each in its own order. -/
inductive Interleaving {α : Type} : List α → List α → List α → Prop
  | done : Interleaving [] [] []
  | first {a b run : List α} (x : α) (h : Interleaving a b run) : Interleaving (x :: a) b (x :: run)
  | second {a b run : List α} (x : α) (h : Interleaving a b run) :
      Interleaving a (x :: b) (x :: run)

def Operation.isOn (half : Half) (op : Operation) : Bool := op.half? = some half

theorem Operation.isOn_own (h : op.half? = some half) : op.isOn half = true := by
  rw [isOn, h, decide_eq_true rfl]

theorem Operation.isOn_other (h : op.half? = some other) (hOther : other ≠ half) :
    ¬ op.isOn half = true := by
  simpa [isOn, h] using hOther

theorem Interleaving.halves {a b run : List Operation} (h : Interleaving a b run)
    (hNodes : ∀ op ∈ a, op.half? = some .nodes)
    (hEndpoints : ∀ op ∈ b, op.half? = some .endpoints) :
    run.filter (·.isOn .nodes) = a ∧ run.filter (·.isOn .endpoints) = b ∧
      ∀ op ∈ run, op.half?.isSome := by
  induction h with
  | done => exact ⟨rfl, rfl, List.forall_mem_nil _⟩
  | first op _ ih =>
    obtain ⟨hOp, hRest⟩ := List.forall_mem_cons.mp hNodes
    obtain ⟨hFirst, hSecond, hHalves⟩ := ih hRest hEndpoints
    have hOther : ¬ op.isOn .endpoints = true := Operation.isOn_other hOp (by decide)
    simp only [List.filter_cons, if_pos (Operation.isOn_own hOp), if_neg hOther, hFirst, hSecond]
    exact ⟨trivial, trivial, List.forall_mem_cons.mpr ⟨Option.isSome_of_eq_some hOp, hHalves⟩⟩
  | second op _ ih =>
    obtain ⟨hOp, hRest⟩ := List.forall_mem_cons.mp hEndpoints
    obtain ⟨hFirst, hSecond, hHalves⟩ := ih hNodes hRest
    have hOther : ¬ op.isOn .nodes = true := Operation.isOn_other hOp (by decide)
    simp only [List.filter_cons, if_pos (Operation.isOn_own hOp), if_neg hOther, hFirst, hSecond]
    exact ⟨trivial, trivial, List.forall_mem_cons.mpr ⟨Option.isSome_of_eq_some hOp, hHalves⟩⟩

theorem Agree.run (hAgree : Agree half c d) {history : List Operation}
    (hHalves : ∀ op ∈ history, op.half?.isSome) :
    (c.transcript history).filter (·.operation.isOn half) =
        d.transcript (history.filter (·.isOn half)) ∧
      Agree half (c.applyAll history) (d.applyAll (history.filter (·.isOn half))) := by
  induction history generalizing c d with
  | nil => exact ⟨rfl, hAgree⟩
  | cons op rest ih =>
    obtain ⟨hOp, hRest⟩ := List.forall_mem_cons.mp hHalves
    obtain ⟨on, hOn⟩ := Option.isSome_iff_exists.mp hOp
    by_cases hOwn : on = half
    · subst hOwn
      obtain ⟨hAnswer, hAfter⟩ := hAgree.apply hOn
      obtain ⟨hTranscript, hEnd⟩ := ih hAfter hRest
      have hKeep : op.isOn on = true := Operation.isOn_own hOn
      simp only [transcript, List.filter_cons, hKeep, if_true, hAnswer, hTranscript]
      exact ⟨trivial, hEnd⟩
    · have hDrop : ¬ op.isOn half = true := Operation.isOn_other hOn hOwn
      -- It works on the other half, so the party that runs alone may leave it out.
      have hAfter : Agree half (c.apply op).1 d := by
        have hKept := c.agree_apply hOn hOwn
        cases half <;> exact hKept.trans hAgree
      simp only [transcript, List.filter_cons, if_neg hDrop]
      exact ih hAfter hRest

/-- Operations on the nodes and operations on the endpoints, interleaved in any way and from any
cache on, are answered as if each party were alone, and leave the nodes of the one and the endpoints
of the other. -/
theorem interleaved (c : Cache) {a b run : List Operation} (h : Interleaving a b run)
    (hNodes : ∀ op ∈ a, op.half? = some .nodes)
    (hEndpoints : ∀ op ∈ b, op.half? = some .endpoints) :
    (c.transcript run).filter (·.operation.isOn .nodes) = c.transcript a ∧
      (c.transcript run).filter (·.operation.isOn .endpoints) = c.transcript b ∧
      c.applyAll run = ⟨(c.applyAll a).nodes, (c.applyAll b).endpoints⟩ := by
  obtain ⟨hFirst, hSecond, hHalves⟩ := h.halves hNodes hEndpoints
  have hSame : ∀ half, Agree half c c := by
    intro half
    cases half <;> rfl
  obtain ⟨hNodeAnswers, hNodesLeft⟩ := (hSame .nodes).run hHalves
  obtain ⟨hEndpointAnswers, hEndpointsLeft⟩ := (hSame .endpoints).run hHalves
  rw [hFirst] at hNodeAnswers hNodesLeft
  rw [hSecond] at hEndpointAnswers hEndpointsLeft
  refine ⟨hNodeAnswers, hEndpointAnswers, ?_⟩
  rw [← show (c.applyAll run).nodes = _ from hNodesLeft,
    ← show (c.applyAll run).endpoints = _ from hEndpointsLeft]

/-- Each party meets a refusal, the one for a node that is not cached, the other for a sample
without a time. -/
theorem interleaved_refused :
    let a := [.upsert "worker", .setCpu "lost" ⟨4, []⟩, .nodes]
    let b := [.record "cluster-b" ⟨0 / 0, 1, 2, none⟩, .appendSent "cluster-b" 7 1, .endpoints]
    let run := [.record "cluster-b" ⟨0 / 0, 1, 2, none⟩, .upsert "worker",
      .appendSent "cluster-b" 7 1, .setCpu "lost" ⟨4, []⟩, .nodes, .endpoints]
    (empty.transcript run).filter (·.operation.isOn .nodes) = empty.transcript a ∧
      (empty.transcript run).filter (·.operation.isOn .endpoints) = empty.transcript b ∧
      (empty.transcript run).map (·.answer.isOk) = [false, true, true, false, true, true] ∧
      (empty.applyAll run).names = ["worker"] ∧
      (empty.applyAll run).endpoints.keys = ["cluster-b"] := by
  intro a b run
  have hRun : Interleaving a b run :=
    .second _ (.first _ (.second _ (.first _ (.first _ (.second _ .done)))))
  obtain ⟨hFirst, hSecond, hLeft⟩ := interleaved empty hRun (by simp [a, Operation.half?])
    (by simp [b, Operation.half?])
  rw [hLeft]
  exact ⟨hFirst, hSecond, by decide +kernel, by decide +kernel, by decide +kernel⟩

end GatewayTelemetry.Cache
