import GatewayTelemetry.Proofs.Cache.Write

/-! # What an operation does to the nodes

Every operation lets some nodes go, changes at most one of those that stay, and puts newcomers
behind them in ascending order of their names. One equation says this of all operations.
-/

namespace GatewayTelemetry

theorem mem_ascending {names : List String} {name : String} :
    name ∈ ascending names ↔ name ∈ names := by
  rw [ascending, Keyed.mem_keys_ofList, List.map_map]
  exact Iff.of_eq (congrArg (name ∈ ·) (List.map_id _))

theorem ascending_sorted (names : List String) : (ascending names).Pairwise (· < ·) :=
  List.pairwise_map.mpr (Keyed.ofList _).ordered

namespace Cache

structure NodeWrite where
  node : String
  address : Option (Option String)
  cpu : Option Usage
  memory : Option Usage
  network : Option NetworkUsage

def NodeWrite.onto (w : NodeWrite) (n : NodeRecord) : NodeRecord :=
  { n with
    address := w.address.getD n.address
    cpu := w.cpu.or n.cpu
    memory := w.memory.or n.memory
    network := w.network.or n.network }

namespace Operation

def nodeWrite? : Operation → Option NodeWrite
  | setAddress name address => some ⟨name, some address, none, none, none⟩
  | setCpu name usage => some ⟨name, none, some usage, none, none⟩
  | setMemory name usage => some ⟨name, none, none, some usage, none⟩
  | setNetwork name usage => some ⟨name, none, none, none, some usage⟩
  | _ => none

def onto (op : Operation) (n : NodeRecord) : NodeRecord :=
  match op.nodeWrite? with
  | some w => if n.name = w.node then w.onto n else n
  | none => n

def brought : Operation → List String
  | upsert name => [name]
  | reconcile live => ascending live
  | _ => []

def expels (name : String) : Operation → Bool
  | reconcile live => !live.contains name
  | clear => true
  | _ => false

theorem onto_of_not_write {op : Operation} (h : op.nodeWrite? = none) : op.onto = id := by
  funext n
  rw [onto, h]
  rfl

theorem onto_name (op : Operation) (n : NodeRecord) : (op.onto n).name = n.name := by
  unfold onto
  split
  · split <;> rfl
  · rfl

theorem brought_sorted (op : Operation) : op.brought.Pairwise (· < ·) := by
  cases op with
  | upsert name => exact List.pairwise_singleton _ _
  | reconcile live => exact ascending_sorted live
  | _ => exact .nil

theorem not_expels_of_brought {op : Operation} {name : String} (h : name ∈ op.brought) :
    op.expels name = false := by
  cases op with
  | reconcile live => simpa [expels] using mem_ascending.mp h
  | clear => cases h
  | _ => rfl

end Operation

theorem apply_nodeWrite {c : Cache} (hDistinct : c.Distinct) {op : Operation} {w : NodeWrite}
    (h : op.nodeWrite? = some w) :
    c.apply op =
      if w.node ∈ c.names then (c.adjust w.node w.onto, .ok .done)
      else (c, .error (.nodeNotFound w.node)) := by
  have hSettle : ∀ f : NodeRecord → NodeRecord, f = w.onto →
      c.settle (c.modifyNode w.node f) =
        if w.node ∈ c.names then (c.adjust w.node w.onto, .ok .done)
        else (c, .error (.nodeNotFound w.node)) := by
    rintro f rfl
    by_cases hMem : w.node ∈ c.names
    · rw [if_pos hMem, hDistinct.modifyNode hMem]
      rfl
    · rw [if_neg hMem, modifyNode_of_not_mem hMem]
      rfl
  cases op <;> cases h <;> exact hSettle _ rfl

theorem settle_writeEndpoint_nodes (c : Cache) (name : String)
    (append : Endpoint → Except RecordError Endpoint) :
    (c.settle (c.writeEndpoint name append)).1.nodes = c.nodes := by
  cases hWritten : c.writeEndpoint name append with
  | ok c' => exact (writeEndpoint_ok hWritten).1
  | error e => rfl

theorem apply_record_nodes (c : Cache) (name : String) (s : EndpointSample) :
    (c.apply (.record name s)).1.nodes = c.nodes := by
  rw [apply_record]
  cases hRecord : c.record name s with
  | ok r => exact (writeEndpoint_ok (record_ok hRecord).1).1
  | error e => rfl

theorem adjust_of_not_mem {c : Cache} {name : String} (h : name ∉ c.names)
    (f : NodeRecord → NodeRecord) : c.adjust name f = c := by
  have hSame : c.nodes.map (fun n => if n.name = name then f n else n) = c.nodes := by
    rw [List.map_congr_left, List.map_id]
    intro n hn
    exact if_neg fun hName => h (List.mem_map.mpr ⟨n, hn, hName⟩)
  rw [adjust, hSame]

theorem apply_nodeWrite_nodes {c : Cache} (hDistinct : c.Distinct) {op : Operation} {w : NodeWrite}
    (h : op.nodeWrite? = some w) : (c.apply op).1.nodes = c.nodes.map op.onto := by
  have hOnto : op.onto = fun n => if n.name = w.node then w.onto n else n := by
    funext n
    rw [Operation.onto, h]
  have hAdjusted : (c.apply op).1 = c.adjust w.node w.onto := by
    rw [apply_nodeWrite hDistinct h]
    by_cases hMem : w.node ∈ c.names
    · rw [if_pos hMem]
    · rw [if_neg hMem, adjust_of_not_mem hMem]
  rw [hAdjusted, hOnto, adjust]

theorem apply_nodes_of_staying {c : Cache} {op : Operation} (hBrought : op.brought = [])
    (hStays : ∀ name, op.expels name = false) (h : (c.apply op).1.nodes = c.nodes.map op.onto) :
    (c.apply op).1.nodes =
      (c.nodes.filter fun n => !op.expels n.name).map op.onto ++
        (op.brought.filter fun name => !c.names.contains name).map .fresh := by
  simp [h, hBrought, hStays]

theorem apply_nodes {c : Cache} (hDistinct : c.Distinct) (op : Operation) :
    (c.apply op).1.nodes =
      (c.nodes.filter fun n => !op.expels n.name).map op.onto ++
        (op.brought.filter fun name => !c.names.contains name).map .fresh := by
  have hKeep : op.nodeWrite? = none → (c.apply op).1.nodes = c.nodes →
      (c.apply op).1.nodes = c.nodes.map op.onto := by
    intro hWrite hSame
    rw [Operation.onto_of_not_write hWrite, List.map_id, hSame]
  cases op with
  | setAddress | setCpu | setMemory | setNetwork =>
    exact apply_nodes_of_staying rfl (fun _ => rfl) (apply_nodeWrite_nodes hDistinct rfl)
  | appendLatency e v t =>
    exact apply_nodes_of_staying rfl (fun _ => rfl)
      (hKeep rfl (apply_appendLatency c e v t ▸ settle_writeEndpoint_nodes c _ _))
  | appendSent e v t =>
    exact apply_nodes_of_staying rfl (fun _ => rfl)
      (hKeep rfl (apply_appendSent c e v t ▸ settle_writeEndpoint_nodes c _ _))
  | appendReceived e v t =>
    exact apply_nodes_of_staying rfl (fun _ => rfl)
      (hKeep rfl (apply_appendReceived c e v t ▸ settle_writeEndpoint_nodes c _ _))
  | record e s => exact apply_nodes_of_staying rfl (fun _ => rfl) (hKeep rfl (apply_record_nodes c e s))
  | node | count | nodes | endpoint | deleteEndpoint | clearEndpoints | endpoints =>
    exact apply_nodes_of_staying rfl (fun _ => rfl) (hKeep rfl rfl)
  | clear => simp [apply, empty, Operation.expels, Operation.brought]
  | reconcile live =>
    have hOnto : Operation.onto (.reconcile live) = id := Operation.onto_of_not_write rfl
    simp [apply, Cache.reconcile, Operation.expels, Operation.brought, hOnto]
  | upsert name =>
    have hOnto : Operation.onto (.upsert name) = id := Operation.onto_of_not_write rfl
    cases hFound : c.node? name with
    | some n =>
      have hMem : name ∈ c.names := (c.node?_isSome name).mp (by simp [hFound])
      simp [apply, Cache.upsert, hFound, Operation.expels, Operation.brought, hOnto, hMem]
    | none =>
      have hNew : name ∉ c.names := by simp [← node?_isSome, hFound]
      simp [apply, Cache.upsert, hFound, Operation.expels, Operation.brought, hOnto, hNew]

theorem apply_names {c : Cache} (hDistinct : c.Distinct) (op : Operation) :
    (c.apply op).1.names =
      (c.names.filter fun name => !op.expels name) ++
        op.brought.filter fun name => !c.names.contains name := by
  have hKept : (fun n : NodeRecord => n.name) ∘ op.onto = (·.name) := funext op.onto_name
  have hFresh : (fun n : NodeRecord => n.name) ∘ NodeRecord.fresh = id := rfl
  rw [names, apply_nodes hDistinct, List.map_append, List.map_map, List.map_map, hKept, hFresh,
    List.map_id, names, List.filter_map]
  rfl

theorem find?_map_name {f : NodeRecord → NodeRecord} (hf : ∀ n, (f n).name = n.name)
    (nodes : List NodeRecord) (name : String) :
    (nodes.map f).find? (fun n => n.name == name) =
      (nodes.find? fun n => n.name == name).map f := by
  rw [List.find?_map]
  simp only [Function.comp_def, hf]

theorem node?_apply {c : Cache} (hDistinct : c.Distinct) (op : Operation) (name : String) :
    (c.apply op).1.node? name =
      if op.expels name then none
      else if name ∈ c.names then (c.node? name).map op.onto
      else if name ∈ op.brought then some (.fresh name) else none := by
  have hStaying : (c.nodes.filter fun n => !op.expels n.name).find? (fun n => n.name == name) =
      if op.expels name then none else c.node? name := by
    have hSame : (fun n : NodeRecord => decide ((!op.expels n.name) = true ∧ (n.name == name) = true)) =
        fun n => !op.expels name && n.name == name := by
      funext n
      by_cases hName : n.name = name <;> simp [hName]
    rw [List.find?_filter, hSame]
    cases op.expels name <;> simp [node?]
  have hNew : ((op.brought.filter fun name => !c.names.contains name).map .fresh).find?
        (fun n : NodeRecord => n.name == name) =
      if name ∈ op.brought ∧ name ∉ c.names then some (.fresh name) else none := by
    rw [List.find?_map, show (fun n : NodeRecord => n.name == name) ∘ .fresh = (· == name) from rfl]
    cases hFound : (op.brought.filter fun name => !c.names.contains name).find? (· == name) with
    | some found =>
      obtain rfl : found = name := by simpa using List.find?_some hFound
      rw [if_pos (by simpa using List.mem_of_find?_eq_some hFound)]
      rfl
    | none =>
      have hMissing : ¬ (name ∈ op.brought ∧ name ∉ c.names) := by
        intro hMem
        simpa using List.find?_eq_none.mp hFound name (by simpa using hMem)
      rw [if_neg hMissing]
      rfl
  rw [node?, apply_nodes hDistinct, List.find?_append, find?_map_name op.onto_name, hStaying, hNew]
  cases hExpels : op.expels name with
  | true =>
    have hGone : name ∉ op.brought := fun h => by simp [Operation.not_expels_of_brought h] at hExpels
    simp [hGone]
  | false =>
    by_cases hMem : name ∈ c.names
    · have hSome := (c.node?_isSome name).mpr hMem
      obtain ⟨n, hn⟩ := Option.isSome_iff_exists.mp hSome
      simp [hMem, hn]
    · have hNone : c.node? name = none := by
        rwa [← Option.not_isSome_iff_eq_none, node?_isSome]
      simp [hMem, hNone]

end Cache

end GatewayTelemetry
