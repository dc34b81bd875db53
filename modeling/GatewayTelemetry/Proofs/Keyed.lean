import GatewayTelemetry.Keyed
import Mathlib.Data.List.Induction
import Mathlib.Data.List.Nodup

/-! # Looking up in a keyed map

What a lookup finds after each change of a map. The order of the entries plays no part in it.
-/

namespace GatewayTelemetry.Keyed

variable {α : Type}

theorem find?_insertEntry (k j : String) (v : α) (es : List (String × α)) :
    ((insertEntry k v es).find? fun e => e.1 == j).map (·.2) =
      if j = k then some v else (es.find? fun e => e.1 == j).map (·.2) := by
  induction es with
  | nil =>
    by_cases hKey : j = k
    · simp [insertEntry, hKey]
    · simp [insertEntry, hKey, Ne.symm hKey]
  | cons x rest ih =>
    unfold insertEntry
    split
    · by_cases hKey : j = k
      · simp [hKey]
      · have hOther : (k == j) = false := by simpa using Ne.symm hKey
        simp [hKey, hOther]
    · split
      · rename_i _ hSame
        subst hSame
        by_cases hKey : j = x.1
        · simp [hKey]
        · have hOther : (x.1 == j) = false := by simpa using Ne.symm hKey
          simp [hKey, hOther]
      · rename_i _ hNe
        by_cases hHead : x.1 = j
        · subst hHead
          simp [Ne.symm hNe]
        · have hOther : (x.1 == j) = false := by simpa using hHead
          rw [List.find?_cons, List.find?_cons, hOther]
          exact ih

@[simp]
theorem find?_insert (m : Keyed α) (k j : String) (v : α) :
    (m.insert k v).find? j = if j = k then some v else m.find? j :=
  find?_insertEntry k j v m.entries

theorem find?_filter_key (keep : String → Bool) (j : String) (es : List (String × α)) :
    ((es.filter fun e => keep e.1).find? fun e => e.1 == j) =
      if keep j then es.find? fun e => e.1 == j else none := by
  induction es with
  | nil => simp
  | cons x rest ih =>
    by_cases hHead : x.1 = j
    · subst hHead
      by_cases hKeep : keep x.1 <;> simp [hKeep, ih]
    · have hOther : (x.1 == j) = false := by simpa using hHead
      by_cases hKeep : keep x.1
      · simp [hKeep, hOther, ih]
      · simp [hKeep, hOther, ih]

@[simp]
theorem find?_retain (m : Keyed α) (keep : String → Bool) (j : String) :
    (m.retain keep).find? j = if keep j then m.find? j else none := by
  unfold find? retain
  rw [find?_filter_key]
  split <;> rfl

theorem erase_eq_retain (m : Keyed α) (k : String) : m.erase k = m.retain (· != k) := rfl

@[simp]
theorem find?_erase (m : Keyed α) (k j : String) :
    (m.erase k).find? j = if j = k then none else m.find? j := by
  rw [erase_eq_retain, find?_retain]
  by_cases hKey : j = k <;> simp [hKey]

theorem mem_insert {m : Keyed α} {k : String} {v : α} {e : String × α}
    (h : e ∈ (m.insert k v).entries) : e = (k, v) ∨ e ∈ m.entries := mem_insertEntry h

theorem mem_keys (m : Keyed α) (k : String) : k ∈ m.keys ↔ (m.find? k).isSome := by
  simp [keys, find?, List.find?_isSome]

theorem keys_nodup (m : Keyed α) : m.keys.Nodup := by
  have hOrdered : m.keys.Pairwise (· < ·) := List.pairwise_map.mpr m.ordered
  refine hOrdered.imp ?_
  intro a b hLess hSame
  exact String.lt_irrefl b (hSame ▸ hLess)

theorem find?_eq_some_iff (m : Keyed α) (k : String) (v : α) :
    m.find? k = some v ↔ (k, v) ∈ m.entries := by
  have hDistinct : (m.entries.map (·.1)).Nodup := m.keys_nodup
  rw [find?, Option.map_eq_some_iff]
  constructor
  · rintro ⟨entry, hFound, rfl⟩
    have hKey : entry.1 = k := by simpa using List.find?_some hFound
    exact hKey ▸ List.mem_of_find?_eq_some hFound
  · intro hMem
    cases hFound : m.entries.find? fun e => e.1 == k with
    | none => simpa using List.find?_eq_none.mp hFound (k, v) hMem
    | some other =>
      have hKey : other.1 = k := by simpa using List.find?_some hFound
      have hSame : other = (k, v) :=
        List.inj_on_of_nodup_map hDistinct (List.mem_of_find?_eq_some hFound) hMem hKey
      exact ⟨other, rfl, congrArg Prod.snd hSame⟩

theorem ext_find? {m n : Keyed α} (h : ∀ k, m.find? k = n.find? k) : m = n := by
  have hMem : ∀ e, e ∈ m.entries ↔ e ∈ n.entries := by
    rintro ⟨k, v⟩
    rw [← find?_eq_some_iff, ← find?_eq_some_iff, h]
  have hPerm : m.entries.Perm n.entries :=
    (List.perm_ext_iff_of_nodup m.keys_nodup.of_map n.keys_nodup.of_map).mpr hMem
  refine ext (hPerm.eq_of_pairwise ?_ m.ordered n.ordered)
  intro a b _ _ hLess hGreater
  exact absurd hGreater (String.lt_asymm hLess)

theorem find?_ofList (pairs : List (String × α)) (k : String) :
    (ofList pairs).find? k = (pairs.reverse.find? fun e => e.1 == k).map (·.2) := by
  induction pairs using List.reverseRecOn with
  | nil => rfl
  | append_singleton past e ih =>
    rw [ofList] at ih ⊢
    rw [List.foldl_append, List.foldl_cons, List.foldl_nil, find?_insert, ih, List.reverse_append,
      List.reverse_singleton, List.singleton_append, List.find?_cons]
    by_cases hKey : k = e.1
    · simp [hKey]
    · have hOther : (e.1 == k) = false := by simpa using Ne.symm hKey
      rw [if_neg hKey, hOther]

theorem insertEntry_last {k : String} {v : α} {es : List (String × α)} (h : ∀ e ∈ es, e.1 < k) :
    insertEntry k v es = es ++ [(k, v)] := by
  induction es with
  | nil => rfl
  | cons e rest ih =>
    have hLess : e.1 < k := h e List.mem_cons_self
    rw [insertEntry, if_neg (String.lt_asymm hLess), if_neg (Ne.symm (String.ne_of_lt hLess)),
      ih fun x hx => h x (List.mem_cons_of_mem e hx)]
    rfl

theorem entries_ofList {pairs : List (String × α)} (h : pairs.Pairwise fun a b => a.1 < b.1) :
    (ofList pairs).entries = pairs := by
  induction pairs using List.reverseRecOn with
  | nil => rfl
  | append_singleton pairs e ih =>
    obtain ⟨hPairs, _, hLast⟩ := List.pairwise_append.mp h
    rw [ofList, List.foldl_append]
    show insertEntry e.1 e.2 (ofList pairs).entries = _
    rw [ih hPairs]
    exact insertEntry_last fun x hx => hLast x hx e (List.mem_singleton_self e)

theorem ofList_entries (m : Keyed α) : ofList m.entries = m := ext (entries_ofList m.ordered)

theorem mem_keys_ofList (pairs : List (String × α)) (k : String) :
    k ∈ (ofList pairs).keys ↔ k ∈ pairs.map (·.1) := by
  rw [mem_keys, find?_ofList, Option.isSome_map, List.find?_isSome, List.mem_map]
  simp

end GatewayTelemetry.Keyed
