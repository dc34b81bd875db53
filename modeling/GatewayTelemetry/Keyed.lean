/-! # Maps kept in key order

A `Keyed` map is a list of entries in strictly ascending key order, so two maps with the same
entries are equal and its entries are its enumeration. Keys compare by code point, which is the
order of their UTF-8 bytes.
-/

namespace GatewayTelemetry

structure Keyed (α : Type) where
  entries : List (String × α)
  ordered : entries.Pairwise fun a b => a.1 < b.1

namespace Keyed

variable {α : Type}

def insertEntry (k : String) (v : α) : List (String × α) → List (String × α)
  | [] => [(k, v)]
  | e :: rest =>
    if k < e.1 then (k, v) :: e :: rest
    else if k = e.1 then (k, v) :: rest
    else e :: insertEntry k v rest

theorem mem_insertEntry {k : String} {v : α} {es : List (String × α)} {e : String × α}
    (h : e ∈ insertEntry k v es) : e = (k, v) ∨ e ∈ es := by
  induction es with
  | nil => simpa [insertEntry] using h
  | cons x rest ih =>
    unfold insertEntry at h
    split at h
    · simpa using h
    · split at h
      · grind
      · rcases List.mem_cons.1 h with h | h
        · exact .inr (by simp [h])
        · rcases ih h with h | h
          · exact .inl h
          · exact .inr (by simp [h])

theorem insertEntry_ordered (k : String) (v : α) {es : List (String × α)}
    (h : es.Pairwise fun a b => a.1 < b.1) :
    (insertEntry k v es).Pairwise fun a b => a.1 < b.1 := by
  induction es with
  | nil => simp [insertEntry]
  | cons x rest ih =>
    rw [List.pairwise_cons] at h
    unfold insertEntry
    split
    · rename_i hlt
      refine List.pairwise_cons.2 ⟨fun e he => ?_, List.pairwise_cons.2 h⟩
      rcases List.mem_cons.1 he with he | he
      · simpa [he] using hlt
      · exact String.lt_trans hlt (h.1 e he)
    · split
      · rename_i heq
        exact List.pairwise_cons.2 ⟨fun e he => by simpa [heq] using h.1 e he, h.2⟩
      · rename_i hlt hne
        refine List.pairwise_cons.2 ⟨fun e he => ?_, ih h.2⟩
        rcases mem_insertEntry he with he | he
        · subst he
          have hle : x.1 ≤ k := String.not_lt.1 hlt
          show x.1 < k
          grind
        · exact h.1 e he

def empty : Keyed α := ⟨[], .nil⟩

def insert (m : Keyed α) (k : String) (v : α) : Keyed α :=
  ⟨insertEntry k v m.entries, insertEntry_ordered k v m.ordered⟩

def erase (m : Keyed α) (k : String) : Keyed α :=
  ⟨m.entries.filter fun e => e.1 != k, m.ordered.filter _⟩

def retain (m : Keyed α) (keep : String → Bool) : Keyed α :=
  ⟨m.entries.filter fun e => keep e.1, m.ordered.filter _⟩

def find? (m : Keyed α) (k : String) : Option α :=
  (m.entries.find? fun e => e.1 == k).map (·.2)

def contains (m : Keyed α) (k : String) : Bool := m.entries.any fun e => e.1 == k

def keys (m : Keyed α) : List String := m.entries.map (·.1)

def values (m : Keyed α) : List α := m.entries.map (·.2)

def size (m : Keyed α) : Nat := m.entries.length

def isEmpty (m : Keyed α) : Bool := m.entries.isEmpty

def modify (m : Keyed α) (k : String) (f : α → α) : Keyed α :=
  match m.find? k with
  | some v => m.insert k (f v)
  | none => m

/-- Later pairs replace earlier ones of the same key. -/
def ofList (pairs : List (String × α)) : Keyed α :=
  pairs.foldl (fun m e => m.insert e.1 e.2) empty

instance : EmptyCollection (Keyed α) := ⟨empty⟩

instance : Inhabited (Keyed α) := ⟨empty⟩

theorem ext {m n : Keyed α} (h : m.entries = n.entries) : m = n := by
  cases m; cases n; cases h; rfl

@[simp] theorem entries_empty : (∅ : Keyed α).entries = [] := rfl

@[simp] theorem find?_empty (k : String) : (∅ : Keyed α).find? k = none := rfl

end Keyed

end GatewayTelemetry
