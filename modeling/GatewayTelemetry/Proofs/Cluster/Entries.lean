import GatewayTelemetry.Cluster.Feed
import GatewayTelemetry.Proofs.Keyed

/-! # The entries of the cluster cache

Nodes are kept by name, pods by namespace and name. Without a slash in either, no two objects share
a key, and an object is listed, stored and deleted under the same one.
-/

namespace GatewayTelemetry

theorem eq_of_slash {a b x y : List Char} (ha : '/' ∉ a) (hb : '/' ∉ b)
    (h : a ++ '/' :: x = b ++ '/' :: y) : a = b ∧ x = y := by
  induction a generalizing b with
  | nil =>
    cases b with
    | nil => exact ⟨rfl, (List.cons.inj h).2⟩
    | cons q b =>
      obtain ⟨hHead, _⟩ := List.cons.inj h
      exact absurd (hHead ▸ List.mem_cons_self) hb
  | cons p a ih =>
    cases b with
    | nil =>
      obtain ⟨hHead, _⟩ := List.cons.inj h
      exact absurd (hHead ▸ List.mem_cons_self) ha
    | cons q b =>
      obtain ⟨rfl, hTail⟩ := List.cons.inj h
      obtain ⟨rfl, rfl⟩ := ih (fun hp => ha (List.mem_cons_of_mem p hp))
        (fun hp => hb (List.mem_cons_of_mem p hp)) hTail
      exact ⟨rfl, rfl⟩

theorem Pod.keyOf_inj {space space' name name' : String} (h : '/' ∉ space.toList)
    (h' : '/' ∉ space'.toList) (hKey : keyOf space name = keyOf space' name') :
    space = space' ∧ name = name' := by
  have hChars : space.toList ++ '/' :: name.toList = space'.toList ++ '/' :: name'.toList := by
    simpa [keyOf] using congrArg String.toList hKey
  obtain ⟨hSpace, hName⟩ := eq_of_slash h h' hChars
  exact ⟨String.toList_inj.mp hSpace, String.toList_inj.mp hName⟩

/-- The object has a name and, just if it is a pod, a namespace, both without a slash. -/
def Described.Named (w : Watched) (d : Described) : Prop :=
  ∃ name, d.name = some name ∧ '/' ∉ name.toList ∧
    match w with
    | .nodes => d.space = none
    | .pods => ∃ space, d.space = some space ∧ '/' ∉ space.toList

def Described.kept? (w : Watched) (d : Described) : Option (String × Option Pod) :=
  match w with
  | .nodes => d.name.map fun name => (name, none)
  | .pods => (Pod.ofDescribed? d).map fun p => (p.key, some p)

def Cluster.held (c : Cluster) (w : Watched) (key : String) : Option (Option Pod) :=
  match w with
  | .nodes => (c.nodes.find? key).map fun _ => none
  | .pods => (c.pods.find? key).map some

namespace Described.Named

variable {w : Watched} {d d' : Described}

theorem kept (h : d.Named w) : ∃ e, d.kept? w = some e ∧ d.key? = some e.1 := by
  obtain ⟨name, hName, _, hSpace⟩ := h
  cases w with
  | nodes => exact ⟨(name, none), by simp [kept?, hName], by simp [key?, hName, hSpace]⟩
  | pods =>
    obtain ⟨space, hSpace, _⟩ := hSpace
    refine ⟨(Pod.keyOf space name, some ⟨name, space, d.node, d.ip, d.phase⟩), ?_, ?_⟩
    · simp [kept?, Pod.ofDescribed?, Pod.key, hName, hSpace]
    · simp [key?, hName, hSpace]

theorem same_key (h : d.Named w) (h' : d'.Named w) {e e' : String × Option Pod}
    (he : d.kept? w = some e) (he' : d'.kept? w = some e') :
    e.1 = e'.1 ↔ d.name = d'.name ∧ d.space = d'.space := by
  constructor
  · intro hKey
    obtain ⟨name, hName, _, hSpace⟩ := h
    obtain ⟨name', hName', _, hSpace'⟩ := h'
    cases w with
    | nodes =>
      obtain rfl : (name, none) = e := by simpa [kept?, hName] using he
      obtain rfl : (name', none) = e' := by simpa [kept?, hName'] using he'
      obtain rfl : name = name' := hKey
      exact ⟨hName.trans hName'.symm, hSpace.trans hSpace'.symm⟩
    | pods =>
      obtain ⟨space, hSpace, hSlash⟩ := hSpace
      obtain ⟨space', hSpace', hSlash'⟩ := hSpace'
      simp only [kept?, Pod.ofDescribed?, hName, hSpace, hName', hSpace', Option.map_some,
        Option.some.injEq, Option.getD_some] at he he'
      subst he he'
      obtain ⟨rfl, rfl⟩ := Pod.keyOf_inj hSlash hSlash' hKey
      exact ⟨hName.trans hName'.symm, hSpace.trans hSpace'.symm⟩
  · rintro ⟨hName, hSpace⟩
    obtain ⟨_, hKept, hKey⟩ := h.kept
    obtain ⟨_, hKept', hKey'⟩ := h'.kept
    cases he.symm.trans hKept
    cases he'.symm.trans hKept'
    have hSame : d.key? = d'.key? := by rw [key?, key?, hName, hSpace]
    exact Option.some.inj (hKey.symm.trans (hSame.trans hKey'))

end Described.Named

namespace Cluster

variable {w : Watched} {d : Described} {e : String × Option Pod}

theorem held_put (c : Cluster) (he : d.kept? w = some e) (v : Watched) (key : String) :
    (c.put w d).held v key = if w = v ∧ key = e.1 then some e.2 else c.held v key := by
  cases w with
  | nodes =>
    cases hName : d.name with
    | none => simp [Described.kept?, hName] at he
    | some name =>
      obtain rfl : (name, none) = e := by simpa [Described.kept?, hName] using he
      cases v with
      | nodes =>
        simp only [held, put, insertNode, hName, Option.map_some, Option.getD_some,
          Keyed.find?_insert, true_and]
        split <;> rfl
      | pods => simp [held, put, insertNode, hName]
  | pods =>
    cases hPod : Pod.ofDescribed? d with
    | none => simp [Described.kept?, hPod] at he
    | some p =>
      obtain rfl : (p.key, some p) = e := by simpa [Described.kept?, hPod] using he
      cases v with
      | nodes => simp [held, put, insertPod, hPod]
      | pods =>
        simp only [held, put, insertPod, hPod, Option.map_some, Option.getD_some,
          Keyed.find?_insert, true_and]
        split <;> rfl

theorem held_drop (c : Cluster) (hNamed : d.Named w) (he : d.kept? w = some e) (v : Watched)
    (key : String) :
    (c.drop w d).held v key = if w = v ∧ key = e.1 then none else c.held v key := by
  obtain ⟨name, hName, _, hSpace⟩ := hNamed
  cases w with
  | nodes =>
    obtain rfl : (name, none) = e := by simpa [Described.kept?, hName] using he
    cases v with
    | nodes =>
      simp only [held, drop, removeNode, hName, Option.map_some, Option.getD_some,
        Keyed.find?_erase, true_and]
      split <;> rfl
    | pods => simp [held, drop, removeNode, hName]
  | pods =>
    obtain ⟨space, hSpace, _⟩ := hSpace
    obtain rfl : (Pod.keyOf space name, some ⟨name, space, d.node, d.ip, d.phase⟩) = e := by
      simpa [Described.kept?, Pod.ofDescribed?, Pod.key, hName, hSpace] using he
    cases v with
    | nodes => simp [held, drop, removePod]
    | pods =>
      simp only [held, drop, removePod, hName, hSpace, Option.getD_some, Keyed.find?_erase,
        true_and]
      split <;> rfl

theorem held_keepOnly (c : Cluster) (w v : Watched) (keys : List String) (key : String) :
    ((c.keepOnly w keys).markSynced w).held v key =
      if w = v ∧ key ∉ keys then none else c.held v key := by
  cases w <;> cases v
  · by_cases hKey : key ∈ keys <;> simp [held, keepOnly, markSynced, hKey]
  · simp [held, keepOnly, markSynced]
  · simp [held, keepOnly, markSynced]
  · by_cases hKey : key ∈ keys <;> simp [held, keepOnly, markSynced, hKey]

end Cluster

end GatewayTelemetry
