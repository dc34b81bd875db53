import GatewayTelemetry.Proofs.Record.Meaning

/-! # The kinds of records

All kinds of records are read in one way: a value is decoded by the schema of its kind, and the
record has to stand its own checks. Main statement: accepted are exactly the values that denote a
record by the schema, if that record is valid, and every other value is a validation error.
-/

namespace GatewayTelemetry

inductive RecordKind where
  | usage (resource : Resource)
  | network
  | node
  | endpoint
  | endpointMap

namespace RecordKind

def Record : RecordKind → Type
  | usage _ => Usage
  | network => NetworkUsage
  | node => NodeRecord
  | endpoint => Endpoint
  | endpointMap => EndpointMap

def decode : (k : RecordKind) → Decoder k.Record
  | usage resource => Usage.decode resource
  | network => NetworkUsage.decode
  | node => NodeRecord.decode
  | endpoint => Endpoint.decode
  | endpointMap => EndpointMap.decode

def validate : (k : RecordKind) → k.Record → Except RecordError Unit
  | usage resource => Usage.validate resource
  | network => NetworkUsage.validate
  | node => NodeRecord.validate
  | endpoint => Endpoint.validate
  | endpointMap => EndpointMap.validate

def ofFields : (k : RecordKind) → Json → Except RecordError k.Record
  | usage resource => Usage.ofFields resource
  | network => NetworkUsage.ofFields
  | node => NodeRecord.ofFields
  | endpoint => Endpoint.ofFields
  | endpointMap => EndpointMap.ofFields

def encode : (k : RecordKind) → k.Record → Json
  | usage _ => Usage.encode
  | network => NetworkUsage.encode
  | node => NodeRecord.encode
  | endpoint => Endpoint.encode
  | endpointMap => EndpointMap.encode

def Schema : (k : RecordKind) → Meaning k.Record
  | usage _ => Meaning.usage
  | network => Meaning.networkUsage
  | node => Meaning.node
  | endpoint => Meaning.endpoint
  | endpointMap => Meaning.endpointMap

/-- Totals are not negative, names are not empty, and endpoints stand under their names. -/
def Valid : (k : RecordKind) → k.Record → Prop
  | usage _, (u : Usage) => 0 ≤ u.total
  | network, (u : NetworkUsage) => u.device ≠ ""
  | node, (n : NodeRecord) => n.name ≠ "" ∧ n.Sound
  | endpoint, (e : Endpoint) => e.name ≠ ""
  | endpointMap, (m : EndpointMap) => ∀ e ∈ m.entries, e.2.name ≠ "" ∧ e.2.name = e.1

def Denotes (k : RecordKind) (j : Json) (r : k.Record) : Prop := k.Schema j r ∧ k.Valid r

theorem decode_reads (k : RecordKind) : k.decode.Reads k.Schema := by
  cases k with
  | usage resource => exact Usage.decode_reads
  | network => exact NetworkUsage.decode_reads
  | node => exact NodeRecord.decode_reads
  | endpoint => exact Endpoint.decode_reads
  | endpointMap => exact EndpointMap.decode_reads

theorem validate_iff (k : RecordKind) (r : k.Record) : k.validate r = .ok () ↔ k.Valid r := by
  cases k with
  | usage resource => exact Usage.validate_iff
  | network => exact NetworkUsage.validate_iff
  | node => exact NodeRecord.valid_iff
  | endpoint => exact Endpoint.validate_iff
  | endpointMap => exact EndpointMap.validate_iff

theorem ofFields_eq (k : RecordKind) (j : Json) :
    k.ofFields j = do
      let r ← (k.decode j).mapError .shape
      k.validate r
      return r := by
  cases k <;> rfl

theorem ofFields_eq_ok_iff (k : RecordKind) (j : Json) (r : k.Record) :
    k.ofFields j = .ok r ↔ k.decode j = .ok r ∧ k.validate r = .ok () := by
  rw [ofFields_eq]
  simp only [bind_eq_ok_iff, pure_eq_ok_iff, mapError_eq_ok_iff]
  constructor
  · rintro ⟨_, hDecoded, _, hValid, rfl⟩
    exact ⟨hDecoded, hValid⟩
  · rintro ⟨hDecoded, hValid⟩
    exact ⟨r, hDecoded, (), hValid, rfl⟩

theorem accepts_exactly (k : RecordKind) (j : Json) :
    (∀ r, k.ofFields j = .ok r ↔ k.Denotes j r) ∧
      ((¬ ∃ r, k.Denotes j r) →
        ∃ e, k.ofFields j = .error e ∧ ∃ detail, e.message = "Validation error: " ++ detail) := by
  have hAccepts : ∀ r, k.ofFields j = .ok r ↔ k.Denotes j r := fun r => by
    rw [ofFields_eq_ok_iff, k.decode_reads j r, validate_iff, Denotes]
  refine ⟨hAccepts, fun hNone => ?_⟩
  cases hRead : k.ofFields j with
  | ok r => exact absurd ⟨r, (hAccepts r).mp hRead⟩ hNone
  | error e => exact ⟨e, rfl, e.detail, rfl⟩

/-- A series may be left out, but it may not be null. -/
example : endpoint.ofFields (.obj [("name", .str "cluster-a")]) = .ok (Endpoint.fresh "cluster-a") ∧
    endpoint.ofFields (.obj [("latencies", .null), ("name", .str "cluster-a")]) =
      .error (.shape (.invalidType .null "a sequence")) := ⟨rfl, rfl⟩

end RecordKind

end GatewayTelemetry
