import GatewayTelemetry.Prometheus.Server
import GatewayTelemetry.Proofs.Decimal.Finite
import GatewayTelemetry.Proofs.Record.ReadBack

/-! # What usages a server can report

Whatever a server answers, the samples that are made of it are finite: the numbers of a document
are, and values that are not are left out.
-/

namespace GatewayTelemetry

namespace Prometheus

theorem mem_of_mapM {α β : Type} {read : α → Option β} {items : List α} {found : List β}
    (h : items.mapM read = some found) : ∀ b ∈ found, ∃ a ∈ items, read a = some b := by
  obtain ⟨_, rfl⟩ := mapM_eq_some_iff_filterMap.mp h
  exact fun b hb => List.mem_filterMap.mp hb

def RangeSeries.Timed (s : RangeSeries) : Prop := ∀ p ∈ s.values, p.1.isFinite = true

def Result.Timed : Result → Prop
  | .matrix series => ∀ s ∈ series, s.Timed
  | .vector _ | .scalar | .text => True

theorem finite_of_readPoint {d : Draft} {p : RawPoint} (h : readPoint d = some p) :
    p.1.isFinite = true := by
  unfold readPoint at h
  split at h
  · obtain ⟨time, hTime, hRest⟩ := Option.bind_eq_some_iff.mp h
    obtain ⟨raw, _, hPoint⟩ := Option.bind_eq_some_iff.mp hRest
    cases hPoint
    exact Draft.isFinite_of_float? hTime
  · cases h

theorem RangeSeries.timed_of_read {d : Draft} {s : RangeSeries} (h : RangeSeries.read d = some s) :
    s.Timed := by
  unfold RangeSeries.read at h
  obtain ⟨fields, _, hFields⟩ := Option.bind_eq_some_iff.mp h
  split at hFields
  · obtain ⟨labels, _, hRest⟩ := Option.bind_eq_some_iff.mp hFields
    obtain ⟨values, hValues, hSeries⟩ := Option.bind_eq_some_iff.mp hRest
    cases hSeries
    intro p hp
    obtain ⟨d, _, hPoint⟩ := mem_of_mapM hValues p hp
    exact finite_of_readPoint hPoint
  · cases hFields

theorem Result.timed_of_readAs {type : ResultType} {d : Draft} {r : Result}
    (h : Result.readAs type d = some r) : r.Timed := by
  unfold Result.readAs at h
  split at h
  · obtain ⟨series, hSeries, rfl⟩ := Option.map_eq_some_iff.mp h
    intro s hs
    obtain ⟨d, _, hRead⟩ := mem_of_mapM hSeries s hs
    exact RangeSeries.timed_of_read hRead
  · obtain ⟨samples, _, rfl⟩ := Option.map_eq_some_iff.mp h
    trivial
  · cases h
    trivial
  · cases h
    trivial
  · cases h

theorem Result.timed_of_readPair {room : Nat} {fields : List (Option String × Draft)} {r : Result}
    (h : Result.readPair room fields = some r) : r.Timed := by
  unfold Result.readPair at h
  split at h
  · split at h
    · obtain ⟨type, _, hRead⟩ := Option.bind_eq_some_iff.mp h
      exact Result.timed_of_readAs hRead
    · split at h
      · obtain ⟨_, _, hRest⟩ := Option.bind_eq_some_iff.mp h
        obtain ⟨type, _, hRead⟩ := Option.bind_eq_some_iff.mp hRest
        exact Result.timed_of_readAs hRead
      · cases h
  · cases h

theorem Result.timed_of_read {d : Draft} {r : Result} (h : Result.read d = some r) : r.Timed := by
  unfold Result.read at h
  split at h
  · obtain ⟨type, _, hRead⟩ := Option.bind_eq_some_iff.mp h
    exact Result.timed_of_readAs hRead
  · split at h
    · cases h
    · exact Result.timed_of_readPair h
  · cases h

theorem Envelope.timed_of_read {d : Draft} {e : Envelope} (h : Envelope.read d = some e) :
    ∀ r ∈ e.result, r.Timed := by
  unfold Envelope.read at h
  obtain ⟨fields, _, hFields⟩ := Option.bind_eq_some_iff.mp h
  split at hFields
  · obtain ⟨status, _, hRest⟩ := Option.bind_eq_some_iff.mp hFields
    obtain ⟨result, hResult, hRest⟩ := Option.bind_eq_some_iff.mp hRest
    obtain ⟨_, _, hRest⟩ := Option.bind_eq_some_iff.mp hRest
    obtain ⟨_, _, hEnvelope⟩ := Option.bind_eq_some_iff.mp hRest
    cases hEnvelope
    intro r hr
    unfold Draft.optional? at hResult
    split at hResult
    · cases hResult
      cases hr
    · cases hResult
      cases hr
    · obtain ⟨found, hFound, hSome⟩ := Option.map_eq_some_iff.mp hResult
      cases hSome
      cases hr
      exact Result.timed_of_read hFound
  · cases hFields

theorem timed_of_readBody {body : String} {r : Result} (h : readBody body = .ok r) : r.Timed := by
  unfold readBody at h
  split at h
  · rename_i e hRead
    obtain ⟨d, _, hEnvelope⟩ := Option.bind_eq_some_iff.mp hRead
    split at h
    · cases h
    · split at h
      · rename_i found hFound
        cases h
        exact Envelope.timed_of_read hEnvelope r hFound
      · cases h
  · cases h

theorem timed_of_readReply {url : String} {reply : Reply} {r : Result}
    (h : readReply url reply = .ok r) : r.Timed := by
  cases reply with
  | unanswered | broken => cases h
  | received status body =>
    simp only [readReply] at h
    split at h
    · cases h
    · exact timed_of_readBody h

theorem timed_of_readRange {url : String} {reply : Reply} {series : List RangeSeries}
    (h : readRange url reply = .ok series) : ∀ s ∈ series, s.Timed := by
  unfold readRange at h
  cases hReply : readReply url reply with
  | error e =>
    rw [hReply] at h
    cases h
  | ok r =>
    have hTimed := timed_of_readReply hReply
    rw [hReply] at h
    cases r with
    | matrix found =>
      cases h
      exact hTimed
    | vector | scalar | text => cases h

theorem samplesOf_finite {s : RangeSeries} (h : s.Timed) :
    ∀ p ∈ samplesOf s.values, Sample.Finite p := by
  intro p hp
  obtain ⟨raw, hRaw, hSample⟩ := List.mem_filterMap.mp hp
  obtain ⟨x, hValue, rfl⟩ := Option.map_eq_some_iff.mp hSample
  exact ⟨h raw hRaw, (Option.filter_eq_some_iff.mp hValue).2⟩

def Joined.Finite (m : Joined) : Prop := ∀ e ∈ m.entries, e.2.Finite

theorem Joined.Finite.usageAt {m : Joined} (h : m.Finite) (address : String) :
    (usageAt m address).Finite := by
  unfold Prometheus.usageAt
  cases hFound : m.find? address with
  | none => exact fun _ hp => nomatch hp
  | some u => exact h (address, u) ((Keyed.find?_eq_some_iff m address u).mp hFound)

theorem Joined.Finite.insert {m : Joined} (h : m.Finite) (address : String) {u : Usage}
    (hUsage : u.Finite) : Joined.Finite (m.insert address u) := by
  intro e he
  rcases Keyed.mem_insert he with rfl | hOld
  · exact hUsage
  · exact h e hOld

theorem Joined.Finite.addTotal {m : Joined} (h : m.Finite) (s : InstantSample) :
    (addTotal m s).Finite := by
  unfold Prometheus.addTotal
  split
  · exact h.insert _ (h.usageAt _)
  · exact h

theorem Joined.Finite.addSeries {m : Joined} (h : m.Finite) {s : RangeSeries} (hTimed : s.Timed) :
    (addSeries m s).Finite := by
  unfold Prometheus.addSeries
  split
  · exact h.insert _ (samplesOf_finite hTimed)
  · exact h

theorem joinUsages_finite (totals : List InstantSample) {usages : List RangeSeries}
    (h : ∀ s ∈ usages, s.Timed) : ∀ r ∈ joinUsages totals usages, r.metric.Finite := by
  have hTotals : ∀ {m : Joined}, m.Finite → (totals.foldl addTotal m).Finite := by
    induction totals with
    | nil => exact id
    | cons s rest ih => exact fun hm => ih (hm.addTotal s)
  have hUsages : ∀ {m : Joined}, m.Finite → (usages.foldl addSeries m).Finite := by
    induction usages with
    | nil => exact id
    | cons s rest ih =>
      exact fun hm => ih (fun x hx => h x (List.mem_cons_of_mem s hx))
        (hm.addSeries (h s List.mem_cons_self))
  have hEmpty : Joined.Finite ∅ := by simp [Joined.Finite]
  intro r hr
  obtain ⟨e, he, rfl⟩ := List.mem_map.mp hr
  exact hUsages (hTotals hEmpty) e he

theorem joinNetwork_finite {received sent : List RangeSeries} (hReceived : ∀ s ∈ received, s.Timed)
    (hSent : ∀ s ∈ sent, s.Timed) : ∀ r ∈ joinNetwork received sent, r.metric.Finite := by
  have hLeaders : ∀ {m : Keyed Leader}, (∀ e ∈ m.entries, e.2.series.Timed) →
      ∀ e ∈ (received.foldl addDevice m).entries, e.2.series.Timed := by
    induction received with
    | nil => exact id
    | cons s rest ih =>
      intro m hm
      refine ih (fun x hx => hReceived x (List.mem_cons_of_mem s hx)) ?_
      unfold addDevice
      split
      · dsimp only
        split
        · intro e he
          rcases Keyed.mem_insert he with rfl | hOld
          · exact hReceived s List.mem_cons_self
          · exact hm e hOld
        · exact hm
      · exact hm
  intro r hr
  obtain ⟨e, he, rfl⟩ := List.mem_map.mp hr
  have hNone : ∀ e ∈ (∅ : Keyed Leader).entries, e.2.series.Timed := by simp
  refine ⟨samplesOf_finite (hLeaders hNone e he), ?_⟩
  intro p hp
  cases hFound : seriesFor sent e.1 e.2.device with
  | none =>
    rw [hFound] at hp
    cases hp
  | some s =>
    rw [hFound] at hp
    exact samplesOf_finite (hSent s (List.mem_of_find?_eq_some hFound)) p hp

variable {e : Access} {s : Server}

theorem Server.finite_of_joined {query : Query} {instant : Except SourceError (List InstantSample)}
    {reports : List (Reported Usage)}
    (h : (do return joinUsages (← instant) (← s.range e query)) = .ok reports) :
    ∀ r ∈ reports, r.metric.Finite := by
  cases instant with
  | error failure => cases h
  | ok totals =>
    cases hRange : s.range e query with
    | error failure =>
      rw [hRange] at h
      cases h
    | ok usages =>
      rw [hRange] at h
      cases h
      exact joinUsages_finite totals (timed_of_readRange hRange)

theorem Server.finite_of_cpu {reports : List (Reported Usage)} (h : s.cpu e = .ok reports) :
    ∀ r ∈ reports, r.metric.Finite := Server.finite_of_joined h

theorem Server.finite_of_memory {reports : List (Reported Usage)} (h : s.memory e = .ok reports) :
    ∀ r ∈ reports, r.metric.Finite := Server.finite_of_joined h

theorem Server.finite_of_network {reports : List (Reported NetworkUsage)}
    (h : s.network e = .ok reports) : ∀ r ∈ reports, r.metric.Finite := by
  unfold Server.network at h
  cases hReceived : s.range e .networkReceived with
  | error failure =>
    rw [hReceived] at h
    cases h
  | ok received =>
    cases hSent : s.range e .networkSent with
    | error failure =>
      rw [hReceived, hSent] at h
      cases h
    | ok sent =>
      rw [hReceived, hSent] at h
      cases h
      exact joinNetwork_finite (timed_of_readRange hReceived) (timed_of_readRange hSent)

end Prometheus

end GatewayTelemetry
