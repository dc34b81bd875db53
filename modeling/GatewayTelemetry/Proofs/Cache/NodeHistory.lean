import GatewayTelemetry.Proofs.Cache.NodeWrite
import GatewayTelemetry.Proofs.Cache.Transcript

/-! # What becomes of a node over a history

The stay of a node begins with the operation that inserted it and lasts as long as no operation
expels it. Nodes are listed in the order in which their stays began, and a node has what has been
set of it during its stay, nothing of earlier stays.
-/

namespace GatewayTelemetry.Cache

def Operation.Brings (name : String) : Operation → Prop
  | upsert other => other = name
  | reconcile live => name ∈ live
  | _ => False

theorem Operation.mem_brought {op : Operation} {name : String} :
    name ∈ op.brought ↔ op.Brings name := by
  cases op with
  | upsert other => simp [brought, Brings, eq_comm]
  | reconcile live => exact mem_ascending
  | _ => simp [brought, Brings]

/-- Some operation has brought the node, and none has expelled it since. -/
def Present (history : List Operation) (name : String) : Prop :=
  ∃ before op after, history = before ++ op :: after ∧ op.Brings name ∧
    ∀ x ∈ after, x.expels name = false

structure Stay (name : String) (history before : List Operation) (op : Operation)
    (after : List Operation) : Prop where
  split : history = before ++ op :: after
  brings : op.Brings name
  absent : ¬ Present before name
  kept : ∀ x ∈ after, x.expels name = false

theorem Stay.present {name : String} {history before after : List Operation} {op : Operation}
    (h : Stay name history before op after) : Present history name :=
  ⟨before, op, after, h.split, h.brings, h.kept⟩

theorem not_present_nil (name : String) : ¬ Present [] name := by
  rintro ⟨before, op, after, hSplit, _⟩
  simp at hSplit

theorem concat_split {past before after : List Operation} {op o : Operation}
    (h : past ++ [op] = before ++ o :: after) :
    (before = past ∧ o = op ∧ after = []) ∨ ∃ rest, after = rest ++ [op] ∧ past = before ++ o :: rest := by
  rcases List.eq_nil_or_concat' after with rfl | ⟨rest, last, rfl⟩
  · obtain ⟨rfl, rfl⟩ := List.append_singleton_inj.mp h
    exact .inl ⟨rfl, rfl, rfl⟩
  · rw [← List.cons_append, ← List.append_assoc] at h
    obtain ⟨rfl, rfl⟩ := List.append_singleton_inj.mp h
    exact .inr ⟨rest, rfl, rfl⟩

section Concat

variable {past before after : List Operation} {op o : Operation} {name : String}

theorem present_concat :
    Present (past ++ [op]) name ↔
      op.Brings name ∨ (Present past name ∧ op.expels name = false) := by
  constructor
  · rintro ⟨before, o, after, hSplit, hBrings, hKept⟩
    rcases concat_split hSplit with ⟨rfl, rfl, rfl⟩ | ⟨rest, rfl, rfl⟩
    · exact .inl hBrings
    · exact .inr ⟨⟨before, o, rest, rfl, hBrings, fun x hx => hKept x (by simp [hx])⟩,
        hKept op (by simp)⟩
  · rintro (hBrings | ⟨⟨before, o, after, rfl, hBrings, hKept⟩, hStays⟩)
    · exact ⟨past, op, [], rfl, hBrings, nofun⟩
    · refine ⟨before, o, after ++ [op], by simp, hBrings, ?_⟩
      intro x hx
      rcases List.mem_append.mp hx with hOld | hNew
      · exact hKept x hOld
      · rw [List.mem_singleton.mp hNew]
        exact hStays

theorem Stay.begin (hBrings : op.Brings name) (hAbsent : ¬ Present past name) :
    Stay name (past ++ [op]) past op [] := ⟨rfl, hBrings, hAbsent, nofun⟩

theorem Stay.extend (h : Stay name past before o after) (hStays : op.expels name = false) :
    Stay name (past ++ [op]) before o (after ++ [op]) where
  split := by simp [h.split]
  brings := h.brings
  absent := h.absent
  kept x hx := by
    rcases List.mem_append.mp hx with hOld | hNew
    · exact h.kept x hOld
    · rw [List.mem_singleton.mp hNew]
      exact hStays

theorem stay_concat (h : Stay name (past ++ [op]) before o after) :
    (before = past ∧ o = op ∧ after = [] ∧ ¬ Present past name) ∨
      ∃ rest, after = rest ++ [op] ∧ Stay name past before o rest ∧ op.expels name = false := by
  rcases concat_split h.split with ⟨rfl, rfl, rfl⟩ | ⟨rest, rfl, rfl⟩
  · exact .inl ⟨rfl, rfl, rfl, h.absent⟩
  · exact .inr ⟨rest, rfl, ⟨rfl, h.brings, h.absent, fun x hx => h.kept x (by simp [hx])⟩,
      h.kept op (by simp)⟩

end Concat

theorem Present.stay {history : List Operation} {name : String} (h : Present history name) :
    ∃ before op after, Stay name history before op after := by
  induction history using List.reverseRecOn with
  | nil => exact absurd h (not_present_nil name)
  | append_singleton past op ih =>
    by_cases hPast : Present past name
    · have hStays : op.expels name = false := by
        rcases present_concat.mp h with hBrings | ⟨_, hStays⟩
        · exact Operation.not_expels_of_brought (Operation.mem_brought.mpr hBrings)
        · exact hStays
      obtain ⟨before, o, after, hStay⟩ := ih hPast
      exact ⟨before, o, after ++ [op], hStay.extend hStays⟩
    · have hBrings : op.Brings name :=
        (present_concat.mp h).resolve_right fun hOld => hPast hOld.1
      exact ⟨past, op, [], .begin hBrings hPast⟩

theorem Stay.unique {name : String} {history before before' after after' : List Operation}
    {op op' : Operation} (h : Stay name history before op after)
    (h' : Stay name history before' op' after') : before' = before := by
  induction history using List.reverseRecOn generalizing after after' with
  | nil => exact absurd h.present (not_present_nil name)
  | append_singleton past last ih =>
    rcases stay_concat h with ⟨rfl, _, _, hAbsent⟩ | ⟨rest, _, hPast, _⟩
    · rcases stay_concat h' with ⟨rfl, _⟩ | ⟨rest', _, hPast', _⟩
      · rfl
      · exact absurd hPast'.present hAbsent
    · rcases stay_concat h' with ⟨_, _, _, hAbsent'⟩ | ⟨rest', _, hPast', _⟩
      · exact absurd hPast.present hAbsent'
      · exact ih hPast hPast'

theorem distinct_applyAll (history : List Operation) : (empty.applyAll history).Distinct :=
  distinct_empty.applyAll history

theorem mem_names_iff (history : List Operation) (name : String) :
    name ∈ (empty.applyAll history).names ↔ Present history name := by
  induction history using List.reverseRecOn with
  | nil => exact ⟨nofun, fun h => absurd h (not_present_nil name)⟩
  | append_singleton past op ih =>
    rw [applyAll_concat, apply_names (distinct_applyAll past), present_concat, ← ih,
      ← Operation.mem_brought, List.mem_append, List.mem_filter, List.mem_filter]
    simp only [Bool.not_eq_true', List.contains_eq_mem, decide_eq_false_iff_not]
    constructor
    · rintro (hOld | ⟨hNew, _⟩)
      · exact .inr hOld
      · exact .inl hNew
    · rintro (hBrought | hOld)
      · by_cases hMem : name ∈ (empty.applyAll past).names
        · exact .inl ⟨hMem, Operation.not_expels_of_brought hBrought⟩
        · exact .inr ⟨hBrought, hMem⟩
      · exact .inl hOld

theorem not_mem_of_expelled {c : Cache} (hDistinct : c.Distinct) {op : Operation} {name : String}
    (h : op.expels name = true) : name ∉ (c.apply op).1.names := by
  rw [apply_names hDistinct, List.mem_append, List.mem_filter, List.mem_filter]
  rintro (⟨_, hStays⟩ | ⟨hBrought, _⟩)
  · simp [h] at hStays
  · simp [Operation.not_expels_of_brought hBrought] at h

theorem not_mem_applyAll {c : Cache} (hDistinct : c.Distinct) {name : String} (h : name ∉ c.names)
    {operations : List Operation} (hBrings : ∀ op ∈ operations, ¬ op.Brings name) :
    name ∉ (c.applyAll operations).names := by
  induction operations generalizing c with
  | nil => exact h
  | cons op rest ih =>
    obtain ⟨hFirst, hRest⟩ := List.forall_mem_cons.mp hBrings
    refine ih (hDistinct.apply op) ?_ hRest
    rw [apply_names hDistinct, List.mem_append, List.mem_filter, List.mem_filter,
      Operation.mem_brought]
    rintro (⟨hOld, _⟩ | ⟨hBrought, _⟩)
    · exact h hOld
    · exact hFirst hBrought

/-- The latest insertion of `a` came before that of `b`, or one operation inserted both and their
names are in order. -/
def InsertedBefore (history : List Operation) (a b : String) : Prop :=
  ∃ before op after before' op' after', Stay a history before op after ∧
    Stay b history before' op' after' ∧
    (before.length < before'.length ∨ (before = before' ∧ a < b))

theorem InsertedBefore.extend {past : List Operation} {op : Operation} {a b : String}
    (h : InsertedBefore past a b) (ha : op.expels a = false) (hb : op.expels b = false) :
    InsertedBefore (past ++ [op]) a b := by
  obtain ⟨before, o, after, before', o', after', hStay, hStay', hOrder⟩ := h
  exact ⟨before, o, _, before', o', _, hStay.extend ha, hStay'.extend hb, hOrder⟩

theorem names_ordered (history : List Operation) :
    (empty.applyAll history).names.Pairwise (InsertedBefore history) := by
  induction history using List.reverseRecOn with
  | nil => exact .nil
  | append_singleton past op ih =>
    have hNew : ∀ b ∈ op.brought.filter (fun name => !(empty.applyAll past).names.contains name),
        Stay b (past ++ [op]) past op [] := by
      intro b hb
      obtain ⟨hBrought, hMissing⟩ := List.mem_filter.mp hb
      refine .begin (Operation.mem_brought.mp hBrought) ?_
      rw [← mem_names_iff]
      simpa using hMissing
    have hOld : ∀ a ∈ (empty.applyAll past).names.filter (fun name => !op.expels name),
        op.expels a = false ∧ Present past a := by
      intro a ha
      obtain ⟨hMem, hStays⟩ := List.mem_filter.mp ha
      exact ⟨by simpa using hStays, (mem_names_iff past a).mp hMem⟩
    rw [applyAll_concat, apply_names (distinct_applyAll past), List.pairwise_append]
    refine ⟨?_, ?_, ?_⟩
    · refine (ih.filter _).imp_of_mem ?_
      intro a b ha hb hBefore
      exact hBefore.extend (hOld a ha).1 (hOld b hb).1
    · refine (op.brought_sorted.filter _).imp_of_mem ?_
      intro a b ha hb hLess
      exact ⟨past, op, [], past, op, [], hNew a ha, hNew b hb, .inr ⟨rfl, hLess⟩⟩
    · intro a ha b hb
      obtain ⟨hStays, hPresent⟩ := hOld a ha
      obtain ⟨before, o, after, hStay⟩ := hPresent.stay
      refine ⟨before, o, _, past, op, [], hStay.extend hStays, hNew b hb, .inl ?_⟩
      rw [hStay.split, List.length_append, List.length_cons]
      omega

def Operation.nodeWriteTo? (name : String) (op : Operation) : Option NodeWrite :=
  op.nodeWrite?.bind fun w => if w.node = name then some w else none

def succeeded (name : String) (t : List Exchange) : List NodeWrite :=
  t.filterMap fun x => if x.answer.isOk then x.operation.nodeWriteTo? name else none

def latest {α : Type} (field : NodeWrite → Option α) (writes : List NodeWrite) : Option α :=
  (writes.filterMap field).getLast?

structure Reflects (n : NodeRecord) (writes : List NodeWrite) : Prop where
  address : n.address = (latest NodeWrite.address writes).join
  cpu : n.cpu = latest NodeWrite.cpu writes
  memory : n.memory = latest NodeWrite.memory writes
  network : n.network = latest NodeWrite.network writes

theorem latest_concat {α : Type} (field : NodeWrite → Option α) (writes : List NodeWrite)
    (w : NodeWrite) : latest field (writes ++ [w]) = (field w).or (latest field writes) := by
  rw [latest, List.filterMap_append, List.getLast?_append, List.filterMap_cons, List.filterMap_nil]
  cases field w <;> rfl

theorem reflects_fresh (name : String) : Reflects (.fresh name) [] := ⟨rfl, rfl, rfl, rfl⟩

theorem Reflects.onto {n : NodeRecord} {writes : List NodeWrite} (h : Reflects n writes)
    (w : NodeWrite) : Reflects (w.onto n) (writes ++ [w]) := by
  constructor
  · rw [latest_concat, NodeWrite.onto, h.address]
    cases w.address <;> rfl
  · rw [latest_concat, NodeWrite.onto, h.cpu]
  · rw [latest_concat, NodeWrite.onto, h.memory]
  · rw [latest_concat, NodeWrite.onto, h.network]

theorem isOk_apply_iff {c : Cache} (hDistinct : c.Distinct) {op : Operation} {w : NodeWrite}
    (h : op.nodeWrite? = some w) : (c.apply op).2.isOk = true ↔ w.node ∈ c.names := by
  rw [apply_nodeWrite hDistinct h]
  by_cases hMem : w.node ∈ c.names
  · simp [hMem, Except.isOk, Except.toBool]
  · simp [hMem, Except.isOk, Except.toBool]

theorem Reflects.apply {c : Cache} (hDistinct : c.Distinct) {n : NodeRecord} (hMem : n ∈ c.nodes)
    {t : List Exchange} (h : Reflects n (succeeded n.name t)) (op : Operation) :
    Reflects (op.onto n) (succeeded n.name (t ++ [⟨op, (c.apply op).2⟩])) := by
  rw [succeeded, List.filterMap_append, ← succeeded, Operation.onto]
  cases hWrite : op.nodeWrite? with
  | none => simpa [Operation.nodeWriteTo?, hWrite] using h
  | some w =>
    by_cases hName : n.name = w.node
    · have hCached : w.node ∈ c.names := hName ▸ List.mem_map_of_mem hMem
      have hOk := (isOk_apply_iff hDistinct hWrite).mpr hCached
      simpa [Operation.nodeWriteTo?, hWrite, hName, hOk] using h.onto w
    · simpa [Operation.nodeWriteTo?, hWrite, hName, Ne.symm hName] using h

theorem reflects_of_stay (history : List Operation) :
    ∀ n ∈ (empty.applyAll history).nodes, ∀ before op after, Stay n.name history before op after →
      Reflects n (succeeded n.name ((empty.applyAll (before ++ [op])).transcript after)) := by
  induction history using List.reverseRecOn with
  | nil => exact fun n hn => absurd hn List.not_mem_nil
  | append_singleton past op ih =>
    intro n hn before o after hStay
    rw [applyAll_concat, apply_nodes (distinct_applyAll past), List.mem_append] at hn
    rcases hn with hOld | hNew
    · obtain ⟨m, hm, rfl⟩ := List.mem_map.mp hOld
      have hMem : m ∈ (empty.applyAll past).nodes := (List.mem_filter.mp hm).1
      rw [Operation.onto_name] at hStay ⊢
      have hPresent : Present past m.name :=
        (mem_names_iff past m.name).mp (List.mem_map_of_mem hMem)
      obtain ⟨_, _, _, hAbsent⟩ | ⟨rest, rfl, hPast, _⟩ := stay_concat hStay
      · exact absurd hPresent hAbsent
      · have hReached : (empty.applyAll (before ++ [o])).applyAll rest = empty.applyAll past := by
          rw [← applyAll_append, List.append_assoc, List.singleton_append, ← hPast.split]
        rw [transcript_concat, hReached]
        exact (ih m hMem before o rest hPast).apply (distinct_applyAll past) hMem op
    · obtain ⟨name, hName, rfl⟩ := List.mem_map.mp hNew
      have hAbsent : ¬ Present past name := by
        rw [← mem_names_iff]
        simpa using (List.mem_filter.mp hName).2
      obtain ⟨_, _, rfl, _⟩ | ⟨rest, _, hPast, _⟩ := stay_concat hStay
      · exact reflects_fresh name
      · exact absurd hPast.present hAbsent

/-- After every history: no name is listed twice; the listed names are those inserted and not
expelled since, in the order of their latest insertions; each of them has one latest insertion, and
its record reflects the successful writes since then; and a write succeeds when its node is
cached. -/
theorem node_history (history : List Operation) :
    let c := empty.applyAll history
    c.names.Nodup ∧
      (∀ name, name ∈ c.names ↔ Present history name) ∧
      c.names.Pairwise (InsertedBefore history) ∧
      (∀ n ∈ c.nodes, ∃ before op after, Stay n.name history before op after ∧
        (∀ before' op' after', Stay n.name history before' op' after' → before' = before) ∧
        Reflects n (succeeded n.name ((empty.applyAll (before ++ [op])).transcript after))) ∧
      ∀ op w, Operation.nodeWrite? op = some w →
        ((c.apply op).2.isOk = true ↔ w.node ∈ c.names) := by
  intro c
  refine ⟨distinct_applyAll history, mem_names_iff history, names_ordered history, ?_, ?_⟩
  · intro n hn
    have hPresent : Present history n.name :=
      (mem_names_iff history n.name).mp (List.mem_map_of_mem hn)
    obtain ⟨before, op, after, hStay⟩ := hPresent.stay
    exact ⟨before, op, after, hStay, fun _ _ _ hOther => hStay.unique hOther,
      reflects_of_stay history n hn before op after hStay⟩
  · intro op w hWrite
    exact isOk_apply_iff (distinct_applyAll history) hWrite

end GatewayTelemetry.Cache
