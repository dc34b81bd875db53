import GatewayTelemetry.Proofs.Cache.InPlace

/-! # What a write to the cache leaves alone

A write to a node succeeds when the node is cached, and moves no names. A write to an endpoint makes
its entry and touches no other. No operation makes a node name occur twice.
-/

namespace GatewayTelemetry

namespace Cache

theorem node?_isSome (c : Cache) (name : String) : (c.node? name).isSome ↔ name ∈ c.names := by
  simp [node?, names, List.find?_isSome]

def Distinct (c : Cache) : Prop := c.names.Nodup

def adjust (c : Cache) (name : String) (f : NodeRecord → NodeRecord) : Cache :=
  { c with nodes := c.nodes.map fun n => if n.name = name then f n else n }

section Node

variable {c : Cache} {name : String} {f g : NodeRecord → NodeRecord}

theorem adjust_names (hf : ∀ n, (f n).name = n.name) : (c.adjust name f).names = c.names := by
  simp only [adjust, names, List.map_map]
  apply List.map_congr_left
  intro n _
  by_cases hName : n.name = name
  · simp [hName, hf n]
  · simp [hName]

theorem Distinct.adjust (h : c.Distinct) (hf : ∀ n, (f n).name = n.name) :
    (c.adjust name f).Distinct := by
  unfold Distinct
  rwa [adjust_names hf]

theorem adjust_adjust (hf : ∀ n, (f n).name = n.name) :
    (c.adjust name f).adjust name g = c.adjust name fun n => g (f n) := by
  simp only [Cache.adjust, List.map_map, Cache.mk.injEq, and_true]
  apply List.map_congr_left
  intro n _
  by_cases hName : n.name = name
  · simp [hName, hf n]
  · simp [hName]

theorem modifyFirst_of_mem {nodes : List NodeRecord} (hDistinct : (nodes.map (·.name)).Nodup)
    (h : name ∈ nodes.map (·.name)) :
    modifyFirst name f nodes = some (nodes.map fun n => if n.name = name then f n else n) := by
  induction nodes with
  | nil => cases h
  | cons n rest ih =>
    obtain ⟨hFresh, hRest⟩ := List.nodup_cons.mp hDistinct
    unfold modifyFirst
    by_cases hHead : n.name = name
    · have hOthers : rest.map (fun n => if n.name = name then f n else n) = rest := by
        rw [List.map_congr_left, List.map_id]
        intro x hx
        exact if_neg fun hName => hFresh (List.mem_map.mpr ⟨x, hx, hName.trans hHead.symm⟩)
      simp [hHead, hOthers]
    · have hTail : name ∈ rest.map (·.name) := by simpa [Ne.symm hHead] using h
      simp [hHead, ih hRest hTail]

theorem modifyFirst_of_not_mem {nodes : List NodeRecord} (h : name ∉ nodes.map (·.name)) :
    modifyFirst name f nodes = none := by
  induction nodes with
  | nil => rfl
  | cons n rest ih =>
    rw [List.map_cons, List.mem_cons, not_or] at h
    simp [modifyFirst, Ne.symm h.1, ih h.2]

theorem Distinct.modifyNode (hDistinct : c.Distinct) (h : name ∈ c.names) :
    c.modifyNode name f = .ok (c.adjust name f) := by
  simp [Cache.modifyNode, modifyFirst_of_mem hDistinct h, Cache.adjust]

theorem modifyNode_of_not_mem (h : name ∉ c.names) :
    c.modifyNode name f = .error (.nodeNotFound name) := by
  simp [Cache.modifyNode, modifyFirst_of_not_mem h]

theorem modifyNode_names (hDistinct : c.Distinct) {c' : Cache} (h : c.modifyNode name f = .ok c')
    (hf : ∀ n, (f n).name = n.name) : c'.names = c.names := by
  by_cases hMem : name ∈ c.names
  · rw [hDistinct.modifyNode hMem] at h
    cases h
    exact adjust_names hf
  · rw [modifyNode_of_not_mem hMem] at h
    cases h

end Node

theorem writeEndpoint_ok {c c' : Cache} {name : String}
    {append : Endpoint → Except RecordError Endpoint} (h : c.writeEndpoint name append = .ok c') :
    c'.nodes = c.nodes ∧ ∃ e, c'.endpoints = c.endpoints.insert name e := by
  unfold writeEndpoint at h
  split at h
  · rename_i e _
    cases h
    exact ⟨rfl, e, rfl⟩
  · cases h

theorem writeEndpoint_names {c c' : Cache} {name : String}
    {append : Endpoint → Except RecordError Endpoint} (h : c.writeEndpoint name append = .ok c') :
    c'.names = c.names := congrArg (·.map (·.name)) (writeEndpoint_ok h).1

theorem record_ok {c c' : Cache} {name : String} {s : EndpointSample} {created : Bool}
    (h : c.record name s = .ok (c', created)) :
    c.writeEndpoint name (appendSample s) = .ok c' ∧ created = (c.endpoint? name).isNone := by
  unfold record at h
  cases hWritten : c.writeEndpoint name (appendSample s) with
  | error e => simp [hWritten, Except.map] at h
  | ok c'' =>
    obtain ⟨rfl, rfl⟩ : c'' = c' ∧ _ := by simpa [hWritten, Except.map] using h
    refine ⟨rfl, ?_⟩
    unfold EndpointMap.entry endpoint?
    cases c.endpoints.find? name <;> rfl

theorem distinct_empty : empty.Distinct := List.nodup_nil

theorem Distinct.upsert {c : Cache} (h : c.Distinct) (name : String) :
    (c.upsert name).1.Distinct := by
  unfold Cache.upsert
  cases hFound : c.node? name with
  | some n => exact h
  | none =>
    have hNew : name ∉ c.names := by simp [← node?_isSome, hFound]
    have hNames : c.names.Nodup ∧ ∀ a ∈ c.names, a ≠ name :=
      ⟨h, fun a ha hSame => hNew (hSame ▸ ha)⟩
    simpa [Distinct, names, NodeRecord.fresh, List.nodup_append] using hNames

theorem reconcile_names (c : Cache) (live : List String) :
    (c.reconcile live).1.names =
      c.names.filter live.contains ++ (ascending live).filter fun name => !c.names.contains name := by
  simp only [reconcile, names, List.map_append, List.map_map, List.filter_map]
  congr 1
  exact List.map_id _

theorem Distinct.reconcile {c : Cache} (h : c.Distinct) (live : List String) :
    (c.reconcile live).1.Distinct := by
  unfold Distinct
  rw [reconcile_names, List.nodup_append]
  refine ⟨h.filter _, (Keyed.keys_nodup _).filter _, ?_⟩
  intro kept hKept added hAdded hSame
  have hOld : kept ∈ c.names := (List.mem_filter.mp hKept).1
  have hNew : added ∉ c.names := by simpa using (List.mem_filter.mp hAdded).2
  exact hNew (hSame ▸ hOld)

theorem settle_names {c : Cache} {r : Except AgentError Cache}
    (h : ∀ c', r = .ok c' → c'.names = c.names) : (c.settle r).1.names = c.names := by
  cases r with
  | ok c' => exact h c' rfl
  | error e => rfl

theorem Distinct.apply {c : Cache} (h : c.Distinct) (op : Operation) : (c.apply op).1.Distinct := by
  have hWrite : ∀ {r : Except AgentError Cache}, (∀ c', r = .ok c' → c'.names = c.names) →
      (c.settle r).1.Distinct := by
    intro r hr
    unfold Distinct
    rwa [settle_names hr]
  cases op with
  | upsert name => exact h.upsert name
  | reconcile live => exact h.reconcile live
  | setAddress name address => exact hWrite fun c' hc => modifyNode_names h hc fun _ => rfl
  | setCpu name usage => exact hWrite fun c' hc => modifyNode_names h hc fun _ => rfl
  | setMemory name usage => exact hWrite fun c' hc => modifyNode_names h hc fun _ => rfl
  | setNetwork name usage => exact hWrite fun c' hc => modifyNode_names h hc fun _ => rfl
  | appendLatency e v t =>
    rw [apply_appendLatency]
    exact hWrite fun c' hc => writeEndpoint_names hc
  | appendSent e v t =>
    rw [apply_appendSent]
    exact hWrite fun c' hc => writeEndpoint_names hc
  | appendReceived e v t =>
    rw [apply_appendReceived]
    exact hWrite fun c' hc => writeEndpoint_names hc
  | record e s =>
    rw [apply_record]
    cases hRecord : c.record e s with
    | error error => exact h
    | ok r =>
      have hNames : r.1.names = c.names := writeEndpoint_names (record_ok hRecord).1
      unfold Distinct
      rwa [hNames]
  | clear => exact distinct_empty
  | node | count | nodes | endpoint | deleteEndpoint | clearEndpoints | endpoints => exact h

theorem Distinct.applyAll {c : Cache} (h : c.Distinct) (history : List Operation) :
    (c.applyAll history).Distinct := by
  induction history generalizing c with
  | nil => exact h
  | cons op rest ih => exact ih (h.apply op)

end Cache

end GatewayTelemetry
