import GatewayTelemetry.Proofs.Cache.Demands
import GatewayTelemetry.Proofs.Record.Canonical

/-! # Maps that were edited

An endpoint map is edited by entering and removing endpoints, by appending to their series, and by
loading another map in its place. Whatever the edits were, each endpoint stands under its own name
and its doubles are finite. So the map is read back as it was written. Main statement: this, and the
like for any valid record of finite doubles.
-/

namespace GatewayTelemetry

open Demands (proper)

namespace EndpointMap

inductive Edit where
  | enter (name : String)
  | appendLatency (name : String) (value timestamp : Float)
  | appendSent (name : String) (value : UInt64) (timestamp : Float)
  | appendReceived (name : String) (value : UInt64) (timestamp : Float)
  | remove (name : String)
  | clear
  | load (j : Json)

/-- Endpoints have names, and latencies are finite. Of timestamps nothing is asked, because an
append with one that is not finite is refused. -/
def Edit.Proper : Edit → Prop
  | enter name | appendSent name _ _ | appendReceived name _ _ => name ≠ ""
  | appendLatency name value _ => name ≠ "" ∧ value.isFinite = true
  | remove _ | clear | load _ => True

def edit (m : EndpointMap) : Edit → EndpointMap
  | .enter name => ensure m name
  | .appendLatency name value timestamp => (appendTo m name (·.appendLatency value timestamp)).1
  | .appendSent name value timestamp => (appendTo m name (·.appendSent value timestamp)).1
  | .appendReceived name value timestamp => (appendTo m name (·.appendReceived value timestamp)).1
  | .remove name => m.erase name
  | .clear => ∅
  | .load j =>
    match ofFields j with
    | .ok loaded => loaded
    | .error _ => m

def edited (edits : List Edit) : EndpointMap := edits.foldl edit ∅

section Steps

variable {m : EndpointMap}

theorem insert_proper (h : proper.OnMap m) {name : String} {e : Endpoint}
    (he : proper.OnEndpoint name e) : proper.OnMap (m.insert name e) := by
  intro x hx
  rcases Keyed.mem_insert hx with rfl | hOld
  · exact he
  · exact h x hOld

theorem entry_proper (h : proper.OnMap m) {name : String} (hName : name ≠ "") :
    proper.OnEndpoint name (entry m name).1 := by
  unfold entry
  split
  · rename_i e hFound
    exact h (name, e) ((m.find?_eq_some_iff name e).mp hFound)
  · exact Demands.onEndpoint_fresh hName

theorem ensure_proper (h : proper.OnMap m) {name : String} (hName : name ≠ "") :
    proper.OnMap (ensure m name) := insert_proper h (entry_proper h hName)

theorem appendTo_proper (h : proper.OnMap m) {w : Cache.EndpointWrite}
    {append : Endpoint → Except RecordError Endpoint} (hDone : w.DoneBy append)
    (hName : w.endpoint ≠ "") (hLatency : ∀ x ∈ w.latency, x.isFinite = true) :
    proper.OnMap (appendTo m w.endpoint append).1 := by
  rw [appendTo, hDone]
  by_cases hFinite : w.timestamp.isFinite = true
  · rw [if_pos hFinite]
    exact insert_proper h ((entry_proper h hName).onto hFinite hLatency)
  · rw [if_neg hFinite]
    exact ensure_proper h hName

theorem accepted_proper {j : Json} (h : ofFields j = .ok m) : proper.OnMap m := by
  intro x hx
  obtain ⟨hName, hSame⟩ := validate_iff.mp (RecordKind.validate_of_accepted .endpointMap h) x hx
  have hRegular : x.2.Regular := RecordKind.regular_of_accepted .endpointMap h x hx
  exact ⟨hSame, hSame ▸ hName, hRegular.dated, List.all_eq_true.mp hRegular.measured⟩

theorem edit_proper (h : proper.OnMap m) {x : Edit} (hx : x.Proper) : proper.OnMap (edit m x) := by
  cases x with
  | enter name => exact ensure_proper h hx
  | appendLatency name value timestamp =>
    refine appendTo_proper h (.latency name value timestamp) hx.1 ?_
    rintro _ ⟨⟩
    exact hx.2
  | appendSent name value timestamp =>
    exact appendTo_proper h (.sent name value timestamp) hx nofun
  | appendReceived name value timestamp =>
    exact appendTo_proper h (.received name value timestamp) hx nofun
  | remove name => exact fun x hx => h x (List.mem_filter.mp hx).1
  | clear => exact nofun
  | load j =>
    rw [edit]
    cases hLoad : ofFields j with
    | ok loaded => exact accepted_proper hLoad
    | error e => exact h

theorem edits_proper (h : proper.OnMap m) {edits : List Edit} (hEdits : ∀ x ∈ edits, x.Proper) :
    proper.OnMap (edits.foldl edit m) := by
  induction edits generalizing m with
  | nil => exact h
  | cons x rest ih =>
    rw [List.forall_mem_cons] at hEdits
    exact ih (edit_proper h hEdits.1) hEdits.2

end Steps

theorem edited_proper {edits : List Edit} (h : ∀ x ∈ edits, x.Proper) :
    proper.OnMap (edited edits) := by
  refine edits_proper ?_ h
  exact nofun

end EndpointMap

theorem RecordKind.read_back :
    (∀ (k : RecordKind) (r : k.Record), k.validate r = .ok () → k.Regular r →
      k.ofFields (k.encode r) = .ok r) ∧
      ∀ edits : List EndpointMap.Edit, (∀ x ∈ edits, x.Proper) →
        EndpointMap.ofFields (EndpointMap.encode (EndpointMap.edited edits)) =
          .ok (EndpointMap.edited edits) := by
  constructor
  · intro k r hValid hRegular
    exact k.ofFields_encode hValid hRegular
  · intro edits hEdits
    have hProper := EndpointMap.edited_proper hEdits
    rw [EndpointMap.ofFields_encode hProper.dated, if_pos hProper.measured]

def EndpointMap.someEdits : List EndpointMap.Edit :=
  [.enter "cluster-a", .appendSent "cluster-b" 18446744073709551615 1700000000,
    .appendLatency "cluster-a" 1.5 (1 / 0), .remove "cluster-c"]

theorem RecordKind.read_back_some :
    (usage .cpu).ofFields (Usage.encode ⟨4, [(1700000000, 0.5)]⟩) = .ok ⟨4, [(1700000000, 0.5)]⟩ ∧
      EndpointMap.ofFields (EndpointMap.encode (EndpointMap.edited EndpointMap.someEdits)) =
        .ok (EndpointMap.edited EndpointMap.someEdits) := by
  constructor
  · refine RecordKind.read_back.1 (usage .cpu) ⟨4, [(1700000000, 0.5)]⟩ rfl ?_
    rintro _ (_ | ⟨_, ⟨⟩⟩)
    exact ⟨rfl, rfl⟩
  · refine RecordKind.read_back.2 EndpointMap.someEdits ?_
    simp only [EndpointMap.someEdits, List.forall_mem_cons, List.not_mem_nil, false_implies,
      implies_true, and_true, EndpointMap.Edit.Proper]
    decide +kernel

end GatewayTelemetry
