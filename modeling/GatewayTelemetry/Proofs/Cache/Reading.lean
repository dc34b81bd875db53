import GatewayTelemetry.Proofs.Cache.EndpointWrite
import GatewayTelemetry.Proofs.Cache.Transcript
import Mathlib.Data.List.Pairwise

/-! # A reading taken as a whole or by its parts

A reading brings one point for each of up to three series. Appended one by one, its parts touch
different series of one endpoint, so their order plays no part in what is left, and together they
leave what the whole reading leaves. All of them stand or fall by the timestamp that they share.
-/

namespace GatewayTelemetry

theorem Keyed.insert_insert {α : Type} (m : Keyed α) (k : String) (v v' : α) :
    (m.insert k v).insert k v' = m.insert k v' := by
  apply ext_find?
  intro j
  rw [find?_insert, find?_insert, find?_insert]
  split <;> rfl

namespace Cache

namespace EndpointWrite

/-- No series gets a point of both writes, which go to one endpoint at one time. -/
structure Apart (w w' : EndpointWrite) : Prop where
  endpoint : w'.endpoint = w.endpoint
  timestamp : w'.timestamp = w.timestamp
  latency : w.latency = none ∨ w'.latency = none
  sent : w.sent = none ∨ w'.sent = none
  received : w.received = none ∨ w'.received = none

theorem Apart.symm {w w' : EndpointWrite} (h : w.Apart w') : w'.Apart w :=
  ⟨h.endpoint.symm, h.timestamp.symm, h.latency.symm, h.sent.symm, h.received.symm⟩

def both (w w' : EndpointWrite) : EndpointWrite :=
  { w with
    latency := w.latency.or w'.latency
    sent := w.sent.or w'.sent
    received := w.received.or w'.received }

variable {w w' : EndpointWrite}

theorem both_comm (h : w.Apart w') : w.both w' = w'.both w := by
  have hOr : ∀ {α : Type} {v v' : Option α}, v = none ∨ v' = none → v.or v' = v'.or v := by
    rintro α v v' (rfl | rfl)
    · rw [Option.none_or, Option.or_none]
    · rw [Option.none_or, Option.or_none]
  rw [both, both, hOr h.latency, hOr h.sent, hOr h.received, h.endpoint, h.timestamp]

theorem onto_both (h : w.Apart w') (e : Endpoint) : (w.both w').onto e = w'.onto (w.onto e) := by
  have hPush : ∀ {α : Type} (series : Series α) {v v' : Option α}, v = none ∨ v' = none →
      series.pushPoint ((v.or v').map (w.timestamp, ·)) =
        (series.pushPoint (v.map (w.timestamp, ·))).pushPoint (v'.map (w.timestamp, ·)) := by
    rintro α series v v' (rfl | rfl)
    · rw [Option.none_or]
      rfl
    · rw [Option.or_none]
      rfl
  simp only [onto, both, latencyPoint, sentPoint, receivedPoint, h.timestamp, hPush _ h.latency,
    hPush _ h.sent, hPush _ h.received]

end EndpointWrite

variable {w w' : EndpointWrite}

theorem putEndpoint_both (c : Cache) (h : w.Apart w') :
    (c.putEndpoint w).putEndpoint w' = c.putEndpoint (w.both w') := by
  simp only [putEndpoint, endpoint?, h.endpoint, Keyed.find?_insert, if_true, Option.getD_some,
    Keyed.insert_insert, EndpointWrite.onto_both h]
  rfl

theorem putEndpoint_comm (c : Cache) (h : w.Apart w') :
    (c.putEndpoint w).putEndpoint w' = (c.putEndpoint w').putEndpoint w := by
  rw [putEndpoint_both c h, putEndpoint_both c h.symm, EndpointWrite.both_comm h]

variable {a b op : Operation} {ops : List Operation} {t : Float}

theorem apply_write_cache (c : Cache) (h : op.write? = some w) :
    (c.apply op).1 = if w.timestamp.isFinite then c.putEndpoint w else c := by
  rcases c.apply_write h with ⟨hFinite, hCache, _⟩ | ⟨hInfinite, hOutcome⟩
  · rw [if_pos hFinite, hCache]
  · rw [if_neg (by simp [hInfinite]), hOutcome]

def Operation.Commutes (a b : Operation) : Prop :=
  ∀ c : Cache, ((c.apply a).1.apply b).1 = ((c.apply b).1.apply a).1

theorem commutes_of_apart (ha : a.write? = some w) (hb : b.write? = some w') (h : w.Apart w') :
    a.Commutes b := by
  intro c
  rw [apply_write_cache _ hb, apply_write_cache _ ha, apply_write_cache _ ha,
    apply_write_cache _ hb, h.timestamp]
  cases w.timestamp.isFinite with
  | true => exact c.putEndpoint_comm h
  | false => rfl

theorem applyAll_perm {order : List Operation} (h : order.Perm ops)
    (hCommute : ops.Pairwise Operation.Commutes) (c : Cache) :
    c.applyAll order = c.applyAll ops := by
  -- Commuting is symmetric and reflexive, so pairs in the order of `ops` say it of any two of them.
  have : Std.Symm Operation.Commutes := ⟨fun _ _ hab d => (hab d).symm⟩
  have hAny := hCommute.forall_of_forall fun _ _ _ => rfl
  exact (h.symm.foldl_eq' (fun _ ha _ hb d => hAny ha hb d) c).symm

def Operation.WritesAt (t : Float) (op : Operation) : Prop :=
  ∃ w, op.write? = some w ∧ w.timestamp = t

theorem apply_error_iff (c : Cache) (h : op.write? = some w) {e : AgentError} :
    (c.apply op).2 = .error e ↔ w.timestamp.isFinite = false ∧ e = .record w.refusal := by
  rcases c.apply_write h with ⟨hFinite, _, hOk⟩ | ⟨hInfinite, hOutcome⟩
  · refine ⟨fun hError => ?_, fun hBoth => ?_⟩
    · rw [hError] at hOk
      cases hOk
    · rw [hFinite] at hBoth
      cases hBoth.1
  · rw [hOutcome, Except.error.injEq]
    exact ⟨fun hRefusal => ⟨hInfinite, hRefusal.symm⟩, fun hBoth => hBoth.2.symm⟩

theorem transcript_error_iff (c : Cache) (h : ∀ op ∈ ops, op.WritesAt t) :
    ∀ x ∈ c.transcript ops, ∀ e,
      x.answer = .error e ↔ t.isFinite = false ∧ e = .record (.timestampNotFinite t) := by
  induction ops generalizing c with
  | nil => exact fun x hx => absurd hx List.not_mem_nil
  | cons op rest ih =>
    obtain ⟨⟨w, hWrite, rfl⟩, hRest⟩ := List.forall_mem_cons.mp h
    rw [transcript, List.forall_mem_cons]
    exact ⟨fun _ => apply_error_iff c hWrite, ih _ hRest⟩

theorem applyAll_of_not_isFinite (c : Cache) (hInfinite : t.isFinite = false)
    (h : ∀ op ∈ ops, op.WritesAt t) : c.applyAll ops = c := by
  induction ops with
  | nil => rfl
  | cons op rest ih =>
    obtain ⟨⟨w, hWrite, rfl⟩, hRest⟩ := List.forall_mem_cons.mp h
    have hKept : (c.apply op).1 = c := by
      rw [apply_write_cache c hWrite, if_neg (by simp [hInfinite])]
    rw [applyAll_cons, hKept]
    exact ih hRest

def setters (name : String) (s : EndpointSample) : List Operation :=
  .appendReceived name s.received s.timestamp :: .appendSent name s.sent s.timestamp ::
    (s.latency.map (.appendLatency name · s.timestamp)).toList

variable (name : String) (s : EndpointSample)

theorem setters_writeAt : ∀ op ∈ setters name s, op.WritesAt s.timestamp := by
  intro op hMem
  rcases List.mem_cons.mp hMem with rfl | hMem
  · exact ⟨_, rfl, rfl⟩
  rcases List.mem_cons.mp hMem with rfl | hMem
  · exact ⟨_, rfl, rfl⟩
  obtain ⟨latency, _, rfl⟩ := Option.map_eq_some_iff.mp (Option.mem_toList.mp hMem)
  exact ⟨_, rfl, rfl⟩

theorem setters_commute : (setters name s).Pairwise Operation.Commutes := by
  have hBytes : Operation.Commutes (.appendReceived name s.received s.timestamp)
      (.appendSent name s.sent s.timestamp) :=
    commutes_of_apart rfl rfl ⟨rfl, rfl, .inl rfl, .inl rfl, .inr rfl⟩
  have hReceived : ∀ latency, Operation.Commutes (.appendReceived name s.received s.timestamp)
      (.appendLatency name latency s.timestamp) :=
    fun latency => commutes_of_apart rfl rfl ⟨rfl, rfl, .inl rfl, .inl rfl, .inr rfl⟩
  have hSent : ∀ latency, Operation.Commutes (.appendSent name s.sent s.timestamp)
      (.appendLatency name latency s.timestamp) :=
    fun latency => commutes_of_apart rfl rfl ⟨rfl, rfl, .inl rfl, .inr rfl, .inl rfl⟩
  unfold setters
  cases s.latency with
  | none => simp [hBytes]
  | some latency => simp [hBytes, hReceived, hSent]

theorem applyAll_setters (c : Cache) :
    c.applyAll (setters name s) = (c.apply (.record name s)).1 := by
  have hBytes : (c.putEndpoint ⟨name, s.timestamp, none, none, some s.received⟩).putEndpoint
      ⟨name, s.timestamp, none, some s.sent, none⟩ =
        c.putEndpoint ⟨name, s.timestamp, none, some s.sent, some s.received⟩ :=
    c.putEndpoint_both ⟨rfl, rfl, .inl rfl, .inl rfl, .inr rfl⟩
  have hAll : ∀ latency,
      (c.putEndpoint ⟨name, s.timestamp, none, some s.sent, some s.received⟩).putEndpoint
        ⟨name, s.timestamp, some latency, none, none⟩ =
          c.putEndpoint ⟨name, s.timestamp, some latency, some s.sent, some s.received⟩ :=
    fun latency => c.putEndpoint_both ⟨rfl, rfl, .inl rfl, .inr rfl, .inr rfl⟩
  rw [apply_write_cache c rfl, setters]
  cases s.latency with
  | none =>
    rw [Option.map_none, Option.toList_none, applyAll_cons, applyAll_cons, applyAll_nil,
      apply_write_cache _ rfl, apply_write_cache _ rfl]
    cases s.timestamp.isFinite with
    | true => exact hBytes
    | false => rfl
  | some latency =>
    rw [Option.map_some, Option.toList_some, applyAll_cons, applyAll_cons, applyAll_cons,
      applyAll_nil, apply_write_cache _ rfl, apply_write_cache _ rfl, apply_write_cache _ rfl]
    cases s.timestamp.isFinite with
    | true =>
      simp only [if_true]
      rw [hBytes, hAll]
    | false => rfl

theorem exists_exchange {order : List Operation} (c : Cache) (h : order.Perm (setters name s)) :
    ∃ x, x ∈ c.transcript order := by
  cases order with
  | nil => exact absurd h.symm (List.not_perm_cons_nil)
  | cons op rest => exact ⟨_, List.mem_cons_self⟩

/-- On any cache, a reading leaves what its parts leave in any order; it fails with exactly the
failures of its parts; and where it fails, all parts fail alike and nothing changes either way. -/
theorem recorded_by_parts (c : Cache) {order : List Operation}
    (h : order.Perm (setters name s)) :
    (c.apply (.record name s)).1 = c.applyAll order ∧
      (∀ e, (c.apply (.record name s)).2 = .error e ↔
        ∃ x ∈ c.transcript order, x.answer = .error e) ∧
      ∀ e, (c.apply (.record name s)).2 = .error e →
        (c.apply (.record name s)).1 = c ∧ c.applyAll order = c ∧
          ∀ x ∈ c.transcript order, x.answer = .error e := by
  have hLeft : c.applyAll order = (c.apply (.record name s)).1 :=
    (applyAll_perm h (setters_commute name s) c).trans (applyAll_setters name s c)
  have hTime : ∀ op ∈ order, op.WritesAt s.timestamp :=
    fun op hMem => setters_writeAt name s op (h.mem_iff.mp hMem)
  have hParts := c.transcript_error_iff hTime
  have hWrite : (Operation.record name s).write? =
      some ⟨name, s.timestamp, s.latency, some s.sent, some s.received⟩ := rfl
  have hWhole : ∀ e, (c.apply (.record name s)).2 = .error e ↔
      s.timestamp.isFinite = false ∧ e = .record (.timestampNotFinite s.timestamp) :=
    fun e => apply_error_iff c hWrite
  refine ⟨hLeft.symm, fun e => ⟨fun hError => ?_, ?_⟩, fun e hError => ?_⟩
  · obtain ⟨first, hFirst⟩ := exists_exchange name s c h
    exact ⟨first, hFirst, (hParts first hFirst e).mpr ((hWhole e).mp hError)⟩
  · rintro ⟨x, hx, hError⟩
    exact (hWhole e).mpr ((hParts x hx e).mp hError)
  · have hRefused := (hWhole e).mp hError
    have hKept : c.applyAll order = c := c.applyAll_of_not_isFinite hRefused.1 hTime
    exact ⟨hLeft.symm.trans hKept, hKept, fun x hx => (hParts x hx e).mpr hRefused⟩

/-- A reading with a latency for an endpoint whose byte series are full, taken latency first. -/
theorem recorded_by_parts_full :
    let full : Series UInt64 :=
      ⟨60, List.replicate 60 (1, 7), Nat.succ_pos 59, List.length_replicate.le⟩
    let c : Cache := ⟨[], Keyed.ofList [("cluster-b", ⟨"cluster-b", .standard, full, full⟩)]⟩
    let s : EndpointSample := ⟨2, 8, 9, some 1.5⟩
    let order : List Operation :=
      [.appendLatency "cluster-b" 1.5 2, .appendReceived "cluster-b" 8 2,
        .appendSent "cluster-b" 9 2]
    order.Perm (setters "cluster-b" s) ∧
      (c.apply (.record "cluster-b" s)).1 = c.applyAll order ∧
      ((c.applyAll order).endpoint? "cluster-b").map
        (fun e => (e.latencies.size, e.sent.size, e.received.latest?)) = some (1, 60, some (2, 8)) := by
  intro full c s order
  have hOrder : order.Perm (setters "cluster-b" s) :=
    ((List.Perm.swap _ _ _).trans ((List.Perm.swap _ _ _).cons _))
  obtain ⟨hSame, _⟩ := recorded_by_parts "cluster-b" s c hOrder
  refine ⟨hOrder, hSame, ?_⟩
  rw [← hSame]
  decide +kernel

end Cache

end GatewayTelemetry
