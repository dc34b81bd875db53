import GatewayTelemetry.Proofs.Cluster.Mirror
import Mathlib.Data.List.Infix
import Mathlib.Data.String.Basic

/-! # The exporter of a node

Once a listing of a kind is over and nothing of that kind has arrived since, exactly the listed
objects are in view, whatever arrives for the other kind. The exporter of a node is then the listed
pod with the least name among those that run there, have an address and carry the marker in their
names.
-/

namespace GatewayTelemetry

/-- The last that has arrived for the kind is the end of a listing. -/
def Over (w : Watched) (past : List Arrival) : Prop :=
  ∃ before rest, past = (before ++ [.notice w .listingEnds]) ++ rest ∧ ∀ a ∈ rest, a.watch ≠ w

theorem listed_of_other {w : Watched} (past : List Arrival) {rest : List Arrival}
    (h : ∀ a ∈ rest, a.watch ≠ w) : listed w (past ++ rest) = listed w past := by
  induction rest using List.reverseRecOn with
  | nil => rw [List.append_nil]
  | append_singleton rest a ih =>
    have hOther : a.watch ≠ w := h a (by simp)
    have hRest : ∀ b ∈ rest, b.watch ≠ w := fun b hb => h b (List.mem_append_left _ hb)
    rw [← List.append_assoc, listed_append, ih hRest]
    cases a with
    | restart v => rfl
    | notice v n =>
      have hNe : v ≠ w := hOther
      cases n <;> simp [listedAfter, hNe]

theorem Feed.after_other (f : Feed) {w : Watched} {rest : List Arrival}
    (hNamed : ∀ v n, .notice v n ∈ rest → n.Named v) (h : ∀ a ∈ rest, a.watch ≠ w) (key : String) :
    (f.after rest).cluster.held w key = f.cluster.held w key := by
  induction rest generalizing f with
  | nil => rfl
  | cons a rest ih =>
    obtain ⟨hOther, hRest⟩ := List.forall_mem_cons.mp h
    have hFirst : ∀ v n, a = .notice v n → n.Named v := by
      rintro v n rfl
      exact hNamed v n List.mem_cons_self
    have hLater := ih (f.step a) (fun v n hn => hNamed v n (List.mem_cons_of_mem a hn)) hRest
    exact hLater.trans ((f.step_other hFirst hOther).2 key)

theorem Admissible.of_append {first second : List Arrival} (h : Admissible (first ++ second)) :
    Admissible first := by
  induction second using List.reverseRecOn with
  | nil => rwa [List.append_nil] at h
  | append_singleton second a ih =>
    rw [← List.append_assoc] at h
    exact ih h.init

section AfterListing

variable (c : Cluster) {past : List Arrival} (hPast : Admissible past)

include hPast

theorem held_of_over {w : Watched} (hOver : Over w past) (key : String) :
    ((Feed.start c).after past).cluster.held w key = lastEntry w (listed w past) key := by
  obtain ⟨before, rest, rfl, hRest⟩ := hOver
  have hNamed : ∀ v n, .notice v n ∈ rest → n.Named v :=
    fun v n hn => hPast.named v n (List.mem_append_right _ hn)
  rw [Feed.after_append, Feed.after_other _ hNamed hRest, listing_ended c w hPast.of_append,
    listed_of_other _ hRest, listed_append]
  rfl

theorem nodeNames_of_over (hOver : Over .nodes past) (name : String) :
    name ∈ ((Feed.start c).after past).cluster.nodeNames ↔
      ∃ d ∈ listed .nodes past, d.name = some name := by
  rw [Cluster.mem_nodeNames, held_of_over c hPast hOver, lastEntry_nodes]

theorem pods_of_over (hOver : Over .pods past) (p : Pod) :
    p ∈ ((Feed.start c).after past).cluster.pods.values ↔ LastVersion (listed .pods past) p := by
  have hNamed : ∀ d ∈ listed .pods past, d.Named .pods :=
    fun d hd => hPast.named .pods (.listed d) (mem_listed hd)
  have hKept : ∀ key, ((Feed.start c).after past).cluster.pods.find? key = some p ↔
      key = p.key ∧ LastVersion (listed .pods past) p := by
    intro key
    rw [Cluster.pods_find?, held_of_over c hPast hOver, lastEntry_pods hNamed]
  constructor
  · intro hp
    obtain ⟨⟨key, _⟩, hEntry, rfl⟩ := List.mem_map.mp hp
    exact ((hKept key).mp ((Keyed.find?_eq_some_iff _ key _).mpr hEntry)).2
  · intro hLast
    have hFound := (hKept p.key).mpr ⟨rfl, hLast⟩
    exact List.mem_map.mpr ⟨_, (Keyed.find?_eq_some_iff _ _ _).mp hFound, rfl⟩

end AfterListing

theorem synced_of_over (c : Cluster) {past : List Arrival} (hOver : ∀ w, Over w past) :
    ((Feed.start c).after past).cluster.isSynced = true := by
  rw [Cluster.isSynced_iff]
  intro w
  obtain ⟨before, rest, rfl, _⟩ := hOver w
  exact ((Feed.start c).after_synced _ w).mpr (.inr (by simp))

theorem Text.occursIn_iff (part cs : List Char) : occursIn part cs = true ↔ part <:+: cs := by
  induction cs with
  | nil => simp [occursIn]
  | cons c rest ih =>
    rw [occursIn, Bool.or_eq_true, ih, List.isPrefixOf_iff_prefix, List.infix_cons_iff]

structure Pod.Exports (marker node : String) (p : Pod) : Prop where
  node : p.node = some node
  name : marker.toList <:+: p.name.toList
  phase : p.phase = some "Running"
  ip : p.ip.isSome

namespace Cluster

variable {marker node : String}

theorem isExporterOn_iff {p : Pod} : isExporterOn marker node p = true ↔ p.Exports marker node := by
  simp only [isExporterOn, Bool.and_eq_true, beq_iff_eq, Text.occursIn_iff]
  exact ⟨fun ⟨⟨⟨hNode, hName⟩, hPhase⟩, hIp⟩ => ⟨hNode, hName, hPhase, hIp⟩,
    fun h => ⟨⟨⟨h.node, h.name⟩, h.phase⟩, h.ip⟩⟩

theorem foldl_lesser (e : Exporter) (rest : List Exporter) :
    rest.foldl lesser e ∈ e :: rest ∧ ∀ x ∈ e :: rest, (rest.foldl lesser e).pod ≤ x.pod := by
  induction rest generalizing e with
  | nil => simp
  | cons b rest ih =>
    obtain ⟨hMem, hLeast⟩ := ih (lesser e b)
    have hBoth : (lesser e b = e ∨ lesser e b = b) ∧
        (lesser e b).pod ≤ e.pod ∧ (lesser e b).pod ≤ b.pod := by
      unfold lesser
      split
      · rename_i hLess
        exact ⟨.inr rfl, hLess.le, le_rfl⟩
      · rename_i hNot
        exact ⟨.inl rfl, le_rfl, not_lt.mp hNot⟩
    have hHead := hLeast _ List.mem_cons_self
    constructor
    · rcases List.mem_cons.mp hMem with hSame | hTail
      · rw [List.foldl_cons, hSame]
        rcases hBoth.1 with hFirst | hSecond
        · simp [hFirst]
        · simp [hSecond]
      · exact List.mem_cons_of_mem e (List.mem_cons_of_mem b hTail)
    · intro x hx
      rcases List.mem_cons.mp hx with rfl | hx
      · exact hHead.trans hBoth.2.1
      · rcases List.mem_cons.mp hx with rfl | hTail
        · exact hHead.trans hBoth.2.2
        · exact hLeast x (List.mem_cons_of_mem _ hTail)

def candidates (marker node : String) (pods : List Pod) : List Exporter :=
  (pods.filter (isExporterOn marker node)).filterMap fun p => p.ip.map fun ip => ⟨p.name, ip⟩

theorem mem_candidates {pods : List Pod} {e : Exporter} :
    e ∈ candidates marker node pods ↔
      ∃ p ∈ pods, p.Exports marker node ∧ p.name = e.pod ∧ p.ip = some e.ip := by
  simp only [candidates, List.mem_filterMap, List.mem_filter, isExporterOn_iff,
    Option.map_eq_some_iff]
  constructor
  · rintro ⟨p, ⟨hp, hExports⟩, ip, hIp, rfl⟩
    exact ⟨p, hp, hExports, rfl, hIp⟩
  · rintro ⟨p, hp, hExports, hName, hIp⟩
    exact ⟨p, ⟨hp, hExports⟩, e.ip, hIp, by rw [hName]⟩

theorem exists_candidate {pods : List Pod} {p : Pod} (hp : p ∈ pods) (h : p.Exports marker node) :
    ∃ ip, ⟨p.name, ip⟩ ∈ candidates marker node pods := by
  obtain ⟨ip, hIp⟩ := Option.isSome_iff_exists.mp h.ip
  exact ⟨ip, mem_candidates.mpr ⟨p, hp, h, rfl, hIp⟩⟩

theorem exporterAmong_eq (marker node : String) (pods : List Pod) :
    exporterAmong marker node pods =
      match candidates marker node pods with
      | [] => none
      | e :: rest => some (rest.foldl lesser e) := rfl

theorem exporterAmong_spec (marker node : String) (pods : List Pod) :
    match exporterAmong marker node pods with
    | some e => ∃ p ∈ pods, p.Exports marker node ∧ p.name = e.pod ∧ p.ip = some e.ip ∧
        ∀ q ∈ pods, q.Exports marker node → p.name ≤ q.name
    | none => ∀ p ∈ pods, ¬ p.Exports marker node := by
  rw [exporterAmong_eq]
  cases hAll : candidates marker node pods with
  | nil =>
    intro p hp hExports
    obtain ⟨ip, hMem⟩ := exists_candidate hp hExports
    rw [hAll] at hMem
    cases hMem
  | cons e rest =>
    obtain ⟨hMem, hLeast⟩ := foldl_lesser e rest
    rw [← hAll] at hMem hLeast
    obtain ⟨p, hp, hExports, hName, hIp⟩ := mem_candidates.mp hMem
    refine ⟨p, hp, hExports, hName, hIp, ?_⟩
    intro q hq hOther
    obtain ⟨ip, hCandidate⟩ := exists_candidate hq hOther
    rw [hName]
    exact hLeast _ hCandidate

end Cluster

end GatewayTelemetry
