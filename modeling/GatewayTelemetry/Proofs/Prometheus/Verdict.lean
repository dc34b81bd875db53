import GatewayTelemetry.Prometheus.Server
import GatewayTelemetry.Proofs.Prometheus.Document
import GatewayTelemetry.Proofs.Text.Cut

/-! # Which answers give usages

Both queries for a usage have to be answered with a document of success that says a result of the
type asked for. The status of an answer counts only where its body does not open like an object, so
such a document is taken under any status. All other answers are failed queries; a server that
answered is never unreachable.
-/

namespace GatewayTelemetry.Prometheus

structure Answer where
  status : Nat
  body : String

def Server.answering (readiness : Reply) (answers : Query → Answer) : Server :=
  ⟨readiness, fun q => .received (answers q).status (answers q).body⟩

/-- A text whose first character that is no blank is an opening brace. -/
def Braced (text : String) : Prop :=
  ∃ lead rest, (∀ c ∈ lead, Text.isBlank c = true) ∧ text.toList = lead ++ '\x7b' :: rest

structure Answer.Says (a : Answer) (r : Result) : Prop where
  taken : (200 ≤ a.status ∧ a.status < 300) ∨ Braced (bodyText a.status a.body)
  document : ∃ d, Draft.read? (bodyText a.status a.body) = some d ∧ Succeeds d r

/-- A procedure that gives just the results that a condition admits, and a failed query if there is
none. -/
structure Settles {α : Type} (outcome : Except SourceError α) (admits : α → Prop) : Prop where
  ok_iff : ∀ a, outcome = .ok a ↔ admits a
  query : (∀ a, ¬ admits a) → ∃ detail, outcome = .error (.query detail)

theorem isSuccess_iff {status : Nat} : isSuccess status = true ↔ 200 ≤ status ∧ status < 300 := by
  simp [isSuccess]

theorem looksLikeEnvelope_iff {text : String} : looksLikeEnvelope text = true ↔ Braced text := by
  rw [looksLikeEnvelope, decide_eq_true_iff, Text.trimStart]
  constructor
  · intro h
    obtain ⟨rest, hRest⟩ := List.head?_eq_some_iff.mp h
    refine ⟨text.toList.takeWhile Text.isBlank, rest, fun c hc => List.mem_takeWhile_imp hc, ?_⟩
    rw [← hRest, List.takeWhile_append_dropWhile]
  · rintro ⟨lead, rest, hLead, hText⟩
    rw [hText, (List.span_append hLead (by simp [Text.isBlank])).2]
    rfl

theorem readReply_received (url : String) (a : Answer) :
    Settles (readReply url (.received a.status a.body)) a.Says := by
  have hTaken : (!isSuccess a.status && !looksLikeEnvelope (bodyText a.status a.body)) = true ↔
      ¬ ((200 ≤ a.status ∧ a.status < 300) ∨ Braced (bodyText a.status a.body)) := by
    rw [← isSuccess_iff, ← looksLikeEnvelope_iff]
    simp
  by_cases hRefused : (!isSuccess a.status && !looksLikeEnvelope (bodyText a.status a.body)) = true
  · have hRead : readReply url (.received a.status a.body) =
        .error (.query (url ++ " returned " ++ statusText a.status)) := if_pos hRefused
    rw [hRead]
    exact ⟨fun r => ⟨nofun, fun h => absurd h.taken (hTaken.mp hRefused)⟩, fun _ => ⟨_, rfl⟩⟩
  · have hRead : readReply url (.received a.status a.body) = readBody (bodyText a.status a.body) :=
      if_neg hRefused
    rw [hRead]
    have hStatus := not_not.mp (mt hTaken.mpr hRefused)
    refine ⟨fun r => readBody_eq_ok_iff.trans ⟨fun h => ⟨hStatus, h⟩, Answer.Says.document⟩, ?_⟩
    intro hNone
    cases hBody : readBody (bodyText a.status a.body) with
    | error e =>
      obtain ⟨detail, rfl⟩ := query_of_readBody hBody
      exact ⟨detail, rfl⟩
    | ok r => exact absurd ⟨hStatus, readBody_eq_ok_iff.mp hBody⟩ (hNone r)

namespace Settles

variable {α β : Type} {outcome : Except SourceError α} {admits : α → Prop}

theorem bind (h : Settles outcome admits) {step : α → Except SourceError β} {p : α → β → Prop}
    (hStep : ∀ a, Settles (step a) (p a)) :
    Settles (outcome >>= step) fun b => ∃ a, admits a ∧ p a b := by
  cases outcome with
  | error e =>
    have hNone : ∀ a, ¬ admits a := fun a ha => nomatch (h.ok_iff a).mpr ha
    refine ⟨fun b => ⟨nofun, fun ⟨a, ha, _⟩ => absurd ha (hNone a)⟩, fun _ => ?_⟩
    obtain ⟨detail, hQuery⟩ := h.query hNone
    cases hQuery
    exact ⟨detail, rfl⟩
  | ok a =>
    have hAdmits : ∀ b, admits b ↔ a = b := fun b =>
      (h.ok_iff b).symm.trans ⟨Except.ok.inj, congrArg Except.ok⟩
    simp only [hAdmits, exists_eq_left']
    exact hStep a

theorem congr (h : Settles outcome admits) {p : α → Prop} (hSame : ∀ a, admits a ↔ p a) :
    Settles outcome p := (funext fun a => propext (hSame a) : admits = p) ▸ h

theorem ok (a : α) : Settles (.ok a) fun b => a = b :=
  ⟨fun _ => ⟨Except.ok.inj, congrArg Except.ok⟩, fun hNone => absurd rfl (hNone a)⟩

theorem failed (detail : String) {p : α → Prop} (h : ∀ a, ¬ p a) :
    Settles (.error (.query detail)) p :=
  ⟨fun a => ⟨nofun, fun ha => absurd ha (h a)⟩, fun _ => ⟨detail, rfl⟩⟩

end Settles

def Tells (e : Access) (answers : Query → Answer) (q : Query) (r : Result) : Prop :=
  isSendable (e.url q) = true ∧ (answers q).Says r

section Queries

variable (e : Access) (readiness : Reply) (answers : Query → Answer) (q : Query)

theorem readReply_answer :
    Settles (readReply (e.url q) ((Server.answering readiness answers).answer e q))
      (Tells e answers q) := by
  rw [Server.answer]
  by_cases hSendable : isSendable (e.url q) = true
  · rw [if_pos hSendable]
    exact (readReply_received _ (answers q)).congr fun r => ⟨fun h => ⟨hSendable, h⟩, And.right⟩
  · rw [if_neg hSendable]
    exact .failed _ fun r h => hSendable h.1

theorem instant_settles :
    Settles ((Server.answering readiness answers).instant e q) fun samples =>
      Tells e answers q (.vector samples) := by
  refine ((readReply_answer e readiness answers q).bind
    (p := fun r samples => r = .vector samples) fun r => ?_).congr fun samples => by simp
  cases r with
  | vector found => exact (Settles.ok found).congr fun samples => by simp
  | matrix | scalar | text => exact .failed _ fun samples h => nomatch h

theorem range_settles :
    Settles ((Server.answering readiness answers).range e q) fun series =>
      Tells e answers q (.matrix series) := by
  refine ((readReply_answer e readiness answers q).bind
    (p := fun r series => r = .matrix series) fun r => ?_).congr fun series => by simp
  cases r with
  | matrix found => exact (Settles.ok found).congr fun series => by simp
  | vector | scalar | text => exact .failed _ fun series h => nomatch h

end Queries

variable (e : Access) (readiness : Reply) (answers : Query → Answer)

/-- Each usage is given just if both of its queries are answered with a document of success and a
result of the type asked for, under a status of success or in a body that opens like an object. Any
other answers make it a failed query. -/
theorem usages_of_answers :
    (Settles ((Server.answering readiness answers).cpu e) fun reports =>
      ∃ totals, Tells e answers .cpuTotal (.vector totals) ∧
        ∃ usages, Tells e answers .cpuUsage (.matrix usages) ∧
          joinUsages totals usages = reports) ∧
    (Settles ((Server.answering readiness answers).memory e) fun reports =>
      ∃ totals, Tells e answers .memoryTotal (.vector totals) ∧
        ∃ usages, Tells e answers .memoryUsage (.matrix usages) ∧
          joinUsages totals usages = reports) ∧
    (Settles ((Server.answering readiness answers).network e) fun reports =>
      ∃ received, Tells e answers .networkReceived (.matrix received) ∧
        ∃ sent, Tells e answers .networkSent (.matrix sent) ∧
          joinNetwork received sent = reports) := by
  refine ⟨?_, ?_, ?_⟩
  · exact (instant_settles e readiness answers .cpuTotal).bind fun totals =>
      (range_settles e readiness answers .cpuUsage).bind fun usages => .ok _
  · exact (instant_settles e readiness answers .memoryTotal).bind fun totals =>
      (range_settles e readiness answers .memoryUsage).bind fun usages => .ok _
  · exact (range_settles e readiness answers .networkReceived).bind fun received =>
      (range_settles e readiness answers .networkSent).bind fun sent => .ok _

def successOf (resultType result : String) : String :=
  "\x7b\"status\":\"success\",\"data\":\x7b\"resultType\":\"" ++ resultType ++
    "\",\"result\":" ++ result ++ "\x7d\x7d"

def misreported : Query → Answer
  | .cpuTotal =>
    ⟨400, successOf "vector" "[\x7b\"metric\":\x7b\"instance\":\"a\"\x7d,\"value\":[1,\"4\"]\x7d]"⟩
  | _ => ⟨200, successOf "matrix" "[]"⟩

theorem usages_of_failure :
    ¬ ∀ (e : Access) (readiness : Reply) (answers : Query → Answer) (reports),
      (Server.answering readiness answers).cpu e = .ok reports →
        ∀ q ∈ [Query.cpuTotal, Query.cpuUsage],
          200 ≤ (answers q).status ∧ (answers q).status < 300 := by
  intro h
  let e : Access := ⟨"http://prom:9090", 600, 10⟩
  have hGiven : (((Server.answering (.received 200 "") misreported).cpu e).map fun reports =>
      reports.map fun r => (r.address, r.metric.total)).toOption = some [("a", 4)] := by
    decide +kernel
  cases hUsages : (Server.answering (.received 200 "") misreported).cpu e with
  | error failure =>
    rw [hUsages] at hGiven
    cases hGiven
  | ok reports =>
    have hStatus := h e _ misreported reports hUsages .cpuTotal List.mem_cons_self
    exact absurd hStatus.2 (by decide)

end GatewayTelemetry.Prometheus
