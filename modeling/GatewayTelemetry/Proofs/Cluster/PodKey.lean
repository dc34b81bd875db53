import GatewayTelemetry.Proofs.Cluster.Entries
import Mathlib.Data.List.Induction

/-! # The three keys of a pod

The key of a pod is made when it is stored, when it is deleted and when it is listed, each time in
another place. With a namespace the three are one key. Without a namespace they are three different
ones: a deletion misses what was stored and may hit another pod, and the end of a listing that names
the pod drops it.
-/

namespace GatewayTelemetry

variable {d : Described} {p : Pod}

def Described.dropKey (d : Described) : String :=
  Pod.keyOf (d.space.getD "default") (d.name.getD "unknown")

theorem Pod.ofDescribed?_eq_some_iff :
    Pod.ofDescribed? d = some p ↔
      d.name = some p.name ∧ p = ⟨p.name, d.space.getD "", d.node, d.ip, d.phase⟩ := by
  rw [ofDescribed?, Option.map_eq_some_iff]
  constructor
  · rintro ⟨name, hName, rfl⟩
    exact ⟨hName, rfl⟩
  · rintro ⟨hName, hSame⟩
    exact ⟨p.name, hName, hSame.symm⟩

section Keys

variable (h : Pod.ofDescribed? d = some p)

include h

theorem Pod.key_of_described : p.key = Pod.keyOf (d.space.getD "") p.name := by
  obtain ⟨_, hSame⟩ := Pod.ofDescribed?_eq_some_iff.mp h
  rw [Pod.key, congrArg Pod.space hSame]

theorem Described.dropKey_of_described : d.dropKey = Pod.keyOf (d.space.getD "default") p.name := by
  rw [dropKey, (Pod.ofDescribed?_eq_some_iff.mp h).1, Option.getD_some]

theorem dropKey_eq_key_iff : d.dropKey = p.key ↔ d.space.isSome := by
  rw [Described.dropKey_of_described h, Pod.key_of_described h]
  cases d.space with
  | some space => exact ⟨fun _ => rfl, fun _ => rfl⟩
  | none =>
    refine ⟨fun hKey => ?_, fun hSome => absurd hSome Bool.false_ne_true⟩
    have hSpace : "default" = "" := (Pod.keyOf_inj (by decide) (by decide) hKey).1
    exact absurd hSpace (by decide)

theorem listedKey_eq_key_iff : d.key? = some p.key ↔ d.space.isSome := by
  rw [Described.key?, (Pod.ofDescribed?_eq_some_iff.mp h).1, Pod.key_of_described h,
    Option.map_some, Option.some.injEq]
  cases d.space with
  | some space => exact ⟨fun _ => rfl, fun _ => rfl⟩
  | none =>
    refine ⟨fun hKey => ?_, fun hSome => absurd hSome Bool.false_ne_true⟩
    have hLength := congrArg String.length hKey
    simp [Pod.keyOf] at hLength

end Keys

namespace Cluster

theorem find?_put_pods (c : Cluster) (h : Pod.ofDescribed? d = some p) (key : String) :
    (c.put .pods d).pods.find? key = if key = p.key then some p else c.pods.find? key := by
  simp [put, h, insertPod]

theorem find?_drop_pods (c : Cluster) (d : Described) (key : String) :
    (c.drop .pods d).pods.find? key = if key = d.dropKey then none else c.pods.find? key :=
  Keyed.find?_erase c.pods d.dropKey key

theorem isSome_put_pods (c : Cluster) (d : Described) {key : String}
    (h : (c.pods.find? key).isSome) : ((c.put .pods d).pods.find? key).isSome := by
  cases hPod : Pod.ofDescribed? d with
  | none =>
    rw [put, hPod]
    exact h
  | some p =>
    rw [find?_put_pods c hPod]
    split
    · rfl
    · exact h

end Cluster

namespace Session

def list (w : Watched) (s : Session) (ds : List Described) : Session :=
  s.receiveAll w (.listingStarts :: ds.map .listed)

theorem list_nil (w : Watched) (s : Session) : s.list w [] = { s with seen := [] } := rfl

theorem list_concat (w : Watched) (s : Session) (ds : List Described) (d : Described) :
    s.list w (ds ++ [d]) = (s.list w ds).receive w (.listed d) := by
  simp [list, receiveAll]

theorem mem_seen_list (w : Watched) (s : Session) (ds : List Described) (key : String) :
    key ∈ (s.list w ds).seen ↔ ∃ d ∈ ds, d.key? = some key := by
  induction ds using List.reverseRecOn with
  | nil => simp [list_nil]
  | append_singleton ds d ih => simp [list_concat, receive, ih, or_and_right, exists_or, or_comm]

theorem isSome_list (s : Session) {ds : List Described} (hMem : d ∈ ds)
    (h : Pod.ofDescribed? d = some p) : ((s.list .pods ds).cluster.pods.find? p.key).isSome := by
  induction ds using List.reverseRecOn with
  | nil => cases hMem
  | append_singleton ds x ih =>
    rw [list_concat]
    show (((s.list .pods ds).cluster.put .pods x).pods.find? p.key).isSome
    rcases List.mem_append.mp hMem with hBefore | hLast
    · exact Cluster.isSome_put_pods _ x (ih hBefore)
    · rw [← List.mem_singleton.mp hLast, Cluster.find?_put_pods _ h, if_pos rfl]
      rfl

theorem find?_listed (s : Session) (ds : List Described) (key : String) :
    ((s.list .pods ds).receive .pods .listingEnds).cluster.pods.find? key =
      if ∃ d ∈ ds, d.key? = some key then (s.list .pods ds).cluster.pods.find? key else none := by
  show ((s.list .pods ds).cluster.pods.retain (s.list .pods ds).seen.contains).find? key = _
  rw [Keyed.find?_retain]
  simp only [List.contains_iff_mem, mem_seen_list]

end Session

/-- One key for a pod everywhere: its deletion takes away what it stored and nothing else, and the
end of a listing with it keeps what is stored for it. -/
structure KeysAgree (s : Session) (d : Described) (p : Pod) : Prop where
  deleted : ((s.receive .pods (.applied d)).receive .pods (.deleted d)).cluster.pods.find? p.key =
    none
  others : ∀ key, key ≠ p.key →
    ((s.receive .pods (.applied d)).receive .pods (.deleted d)).cluster.pods.find? key =
      (s.receive .pods (.applied d)).cluster.pods.find? key
  kept : ∀ ds, d ∈ ds → ∃ q, (s.list .pods ds).cluster.pods.find? p.key = some q ∧
    ((s.list .pods ds).receive .pods .listingEnds).cluster.pods.find? p.key = some q

theorem find?_deleted (s : Session) (d : Described) (key : String) :
    ((s.receive .pods (.applied d)).receive .pods (.deleted d)).cluster.pods.find? key =
      if key = d.dropKey then none
      else (s.receive .pods (.applied d)).cluster.pods.find? key :=
  Cluster.find?_drop_pods _ d key

theorem keysAgree_of_space (s : Session) (h : Pod.ofDescribed? d = some p)
    (hSpace : d.space.isSome) : KeysAgree s d p := by
  have hDrop : d.dropKey = p.key := (dropKey_eq_key_iff h).mpr hSpace
  have hListed : d.key? = some p.key := (listedKey_eq_key_iff h).mpr hSpace
  constructor
  · rw [find?_deleted, hDrop, if_pos rfl]
  · intro key hOther
    rw [find?_deleted, hDrop, if_neg hOther]
  · intro ds hMem
    obtain ⟨q, hStored⟩ := Option.isSome_iff_exists.mp (s.isSome_list hMem h)
    refine ⟨q, hStored, ?_⟩
    rw [Session.find?_listed, if_pos ⟨d, hMem, hListed⟩]
    exact hStored

theorem find?_applied (s : Session) (h : Pod.ofDescribed? d = some p) :
    (s.receive .pods (.applied d)).cluster.pods.find? p.key = some p :=
  (Cluster.find?_put_pods s.cluster h p.key).trans (if_pos rfl)

section Unspaced

variable (s : Session) (h : Pod.ofDescribed? d = some p) (hSpace : d.space = none)

include h hSpace

theorem stays_when_deleted :
    ((s.receive .pods (.applied d)).receive .pods (.deleted d)).cluster.pods.find? p.key =
      some p := by
  have hMissed : p.key ≠ d.dropKey := by
    intro hKey
    have hSome := (dropKey_eq_key_iff h).mp hKey.symm
    rw [hSpace] at hSome
    cases hSome
  rw [find?_deleted, if_neg hMissed, find?_applied s h]

theorem goes_when_listed {ds : List Described}
    (hOthers : ∀ x ∈ ds, x = d ∨ x.key? ≠ some p.key) :
    ((s.list .pods ds).receive .pods .listingEnds).cluster.pods.find? p.key = none := by
  have hUnseen : ¬ ∃ x ∈ ds, x.key? = some p.key := by
    rintro ⟨x, hx, hKey⟩
    rcases hOthers x hx with rfl | hOther
    · have hSome := (listedKey_eq_key_iff h).mp hKey
      rw [hSpace] at hSome
      cases hSome
    · exact hOther hKey
  rw [Session.find?_listed, if_neg hUnseen]

end Unspaced

theorem keysAgree_iff (s : Session) (h : Pod.ofDescribed? d = some p) :
    KeysAgree s d p ↔ d.space.isSome := by
  refine ⟨fun hAgree => ?_, keysAgree_of_space s h⟩
  by_contra hNot
  have hStays := stays_when_deleted s h (Option.not_isSome_iff_eq_none.mp hNot)
  rw [hAgree.deleted] at hStays
  cases hStays

/-- Whatever the session has come to, the three keys of a stored pod agree exactly when it has a
namespace. Without one, what was stored for it outlives its deletion, which takes away the pod of
that name in the namespace `default`, and does not outlive a listing unless another listed object
has the key. -/
theorem pod_keys_agree (s : Session) (h : Pod.ofDescribed? d = some p) :
    (s.receive .pods (.applied d)).cluster.pods.find? p.key = some p ∧
      (KeysAgree s d p ↔ d.space.isSome) ∧
      (d.space = none →
        (∀ key,
          ((s.receive .pods (.applied d)).receive .pods (.deleted d)).cluster.pods.find? key =
            if key = Pod.keyOf "default" p.name then none
            else (s.receive .pods (.applied d)).cluster.pods.find? key) ∧
        ((s.receive .pods (.applied d)).receive .pods (.deleted d)).cluster.pods.find? p.key =
          some p ∧
        ∀ ds, (∀ x ∈ ds, x = d ∨ x.key? ≠ some p.key) →
          ((s.list .pods ds).receive .pods .listingEnds).cluster.pods.find? p.key = none) := by
  refine ⟨find?_applied s h, keysAgree_iff s h, fun hSpace => ⟨fun key => ?_,
    stays_when_deleted s h hSpace, fun ds hOthers => goes_when_listed s h hSpace hOthers⟩⟩
  rw [find?_deleted, Described.dropKey_of_described h, hSpace]
  rfl

/-- A pod in the namespace `monitoring`, in a session in which another pod of its name is cached. -/
theorem pod_keys_agree_monitoring :
    let d : Described :=
      ⟨some "exporter", some "monitoring", some "n1", some "10.0.0.1", some "Running"⟩
    let p : Pod := ⟨"exporter", "monitoring", some "n1", some "10.0.0.1", some "Running"⟩
    let other : Pod := ⟨"exporter", "default", some "n2", some "10.0.0.2", some "Running"⟩
    let s : Session := ⟨Cluster.empty.insertPod other, []⟩
    Pod.ofDescribed? d = some p ∧ KeysAgree s d p := by
  intro d p other s
  have hPod : Pod.ofDescribed? d = some p := rfl
  exact ⟨hPod, (pod_keys_agree s hPod).2.1.mpr rfl⟩

/-- The same pod without its namespace stays when it is deleted, while the other pod goes, and a
listing of it alone leaves nothing. -/
theorem pod_keys_differ :
    let d : Described := ⟨some "exporter", none, some "n1", some "10.0.0.1", some "Running"⟩
    let p : Pod := ⟨"exporter", "", some "n1", some "10.0.0.1", some "Running"⟩
    let other : Pod := ⟨"exporter", "default", some "n2", some "10.0.0.2", some "Running"⟩
    let s : Session := ⟨Cluster.empty.insertPod other, []⟩
    let applied := s.receive .pods (.applied d)
    let deleted := applied.receive .pods (.deleted d)
    let listed := (s.list .pods [d]).receive .pods .listingEnds
    applied.cluster.pods.values = [p, other] ∧ deleted.cluster.pods.values = [p] ∧
      listed.cluster.pods.values = [] := by
  decide +kernel

end GatewayTelemetry
