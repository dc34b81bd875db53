import GatewayTelemetry.Proofs.Cluster.Entries
import Mathlib.Data.List.Induction

/-! # The feed mirrors the cluster

Both watches run side by side in sessions that may be cut anywhere. While a listing is under way,
the keys seen are those of the objects listed so far, and each of these is kept as last listed
(`listing_mirrored`); so at the end of the listing the cache holds these objects and no others.
-/

namespace GatewayTelemetry

inductive Arrival where
  | notice (w : Watched) (n : Notice)
  | restart (w : Watched)
  deriving DecidableEq

structure Feed where
  cluster : Cluster
  seen : Watched → List String

namespace Feed

def start (c : Cluster) : Feed := ⟨c, fun _ => []⟩

def step (f : Feed) : Arrival → Feed
  | .notice w n =>
    let s := Session.receive w ⟨f.cluster, f.seen w⟩ n
    ⟨s.cluster, fun v => if v = w then s.seen else f.seen v⟩
  | .restart w => { f with seen := fun v => if v = w then [] else f.seen v }

def after (f : Feed) (past : List Arrival) : Feed := past.foldl step f

theorem after_append (f : Feed) (first second : List Arrival) :
    f.after (first ++ second) = (f.after first).after second := List.foldl_append

theorem after_singleton (f : Feed) (past : List Arrival) (a : Arrival) :
    f.after (past ++ [a]) = (f.after past).step a := by
  rw [after_append]
  rfl

theorem after_session (c : Cluster) (w : Watched) (notices : List Notice) :
    ((start c).after (.restart w :: notices.map (.notice w))).cluster = c.afterSession w notices := by
  have hSession : ∀ (f : Feed) (s : Session), f.cluster = s.cluster → f.seen w = s.seen →
      (f.after (notices.map (.notice w))).cluster = (s.receiveAll w notices).cluster := by
    induction notices with
    | nil => exact fun f s hCluster _ => hCluster
    | cons n rest ih =>
      intro f s hCluster hSeen
      have hReceive : Session.receive w ⟨f.cluster, f.seen w⟩ n = s.receive w n := by
        rw [hCluster, hSeen]
      exact ih (f.step (.notice w n)) (s.receive w n) (congrArg Session.cluster hReceive)
        (by simp [step, hReceive])
  exact hSession _ ⟨c, []⟩ rfl (by simp [step])

end Feed

/-- What the watch library does: listings one after the other, and changes behind a finished one. -/
def Phase.next? : Phase → Notice → Option Phase
  | _, .listingStarts => some .listing
  | .listing, .listed _ => some .listing
  | .listing, .listingEnds => some .watching
  | .watching, .applied _ => some .watching
  | .watching, .deleted _ => some .watching
  | _, _ => none

def Phase.after (w : Watched) (p : Option Phase) : Arrival → Option Phase
  | .notice v n => if v = w then p.bind fun p => p.next? n else p
  | .restart v => if v = w then p.map fun _ => .waiting else p

def phase? (w : Watched) (past : List Arrival) : Option Phase :=
  past.foldl (Phase.after w) (some .waiting)

def Notice.Named (w : Watched) : Notice → Prop
  | .listed d | .applied d | .deleted d => d.Named w
  | .listingStarts | .listingEnds => True

structure Admissible (past : List Arrival) : Prop where
  phases : ∀ w, (phase? w past).isSome
  named : ∀ w n, .notice w n ∈ past → n.Named w

def listedAfter (w : Watched) (ds : List Described) : Arrival → List Described
  | .notice v .listingStarts => if v = w then [] else ds
  | .notice v (.listed d) => if v = w then ds ++ [d] else ds
  | _ => ds

def listed (w : Watched) (past : List Arrival) : List Described := past.foldl (listedAfter w) []

theorem listed_append (w : Watched) (past : List Arrival) (a : Arrival) :
    listed w (past ++ [a]) = listedAfter w (listed w past) a := by
  simp [listed]

def lastEntry (w : Watched) (ds : List Described) (key : String) : Option (Option Pod) :=
  ds.reverse.findSome? fun d => (d.kept? w).bind fun e => if key = e.1 then some e.2 else none

theorem lastEntry_append {w : Watched} {d : Described} {e : String × Option Pod}
    (he : d.kept? w = some e) (ds : List Described) (key : String) :
    lastEntry w (ds ++ [d]) key = if key = e.1 then some e.2 else lastEntry w ds key := by
  simp only [lastEntry, List.reverse_append, List.reverse_singleton, List.singleton_append,
    List.findSome?_cons, he, Option.bind_some]
  by_cases hKey : key = e.1
  · simp [hKey]
  · simp [hKey]

theorem phase?_append (w : Watched) (past : List Arrival) (a : Arrival) :
    phase? w (past ++ [a]) = Phase.after w (phase? w past) a := by
  simp [phase?]

theorem Admissible.init {past : List Arrival} {a : Arrival} (h : Admissible (past ++ [a])) :
    Admissible past where
  phases w := by
    have hSome := h.phases w
    rw [phase?_append] at hSome
    cases hPhase : phase? w past with
    | none =>
      rw [hPhase] at hSome
      cases a <;> simp [Phase.after] at hSome
    | some p => rfl
  named w n hn := h.named w n (List.mem_append_left _ hn)

/-- What an arrival does to what is kept of one kind: a listed or applied object is stored under its
key, a deleted one goes, and but for the end of a listing of that kind all else stays. -/
def Effect (w : Watched) (before after : Cluster) : Arrival → Prop
  | .notice v (.listed d) | .notice v (.applied d) =>
    ∃ e, d.kept? v = some e ∧ ∀ key,
      after.held w key = if v = w ∧ key = e.1 then some e.2 else before.held w key
  | .notice v (.deleted d) =>
    ∃ e, d.kept? v = some e ∧ ∀ key,
      after.held w key = if v = w ∧ key = e.1 then none else before.held w key
  | .notice v .listingEnds => v ≠ w → ∀ key, after.held w key = before.held w key
  | .notice _ .listingStarts | .restart _ => ∀ key, after.held w key = before.held w key

theorem Feed.step_effect (f : Feed) {a : Arrival} (h : ∀ v n, a = .notice v n → n.Named v)
    (w : Watched) : Effect w f.cluster (f.step a).cluster a := by
  cases a with
  | restart v => exact fun _ => rfl
  | notice v n =>
    have hNamed := h v n rfl
    cases n with
    | listingStarts => exact fun _ => rfl
    | listed d | applied d =>
      obtain ⟨e, he, _⟩ := Described.Named.kept hNamed
      exact ⟨e, he, fun key => f.cluster.held_put he w key⟩
    | deleted d =>
      obtain ⟨e, he, _⟩ := Described.Named.kept hNamed
      exact ⟨e, he, fun key => f.cluster.held_drop hNamed he w key⟩
    | listingEnds =>
      intro hOther key
      show ((f.cluster.keepOnly v (f.seen v)).markSynced v).held w key = f.cluster.held w key
      rw [Cluster.held_keepOnly, if_neg fun hBoth => hOther hBoth.1]

def Arrival.watch : Arrival → Watched
  | .notice w _ | .restart w => w

theorem Feed.step_other (f : Feed) {a : Arrival} (h : ∀ v n, a = .notice v n → n.Named v)
    {w : Watched} (hOther : a.watch ≠ w) :
    (f.step a).seen w = f.seen w ∧ ∀ key, (f.step a).cluster.held w key = f.cluster.held w key := by
  have hEffect := f.step_effect h w
  cases a with
  | restart v => exact ⟨if_neg fun hSame => hOther hSame.symm, hEffect⟩
  | notice v n =>
    refine ⟨if_neg fun hSame => hOther hSame.symm, fun key => ?_⟩
    cases n with
    | listingStarts => exact hEffect key
    | listingEnds => exact hEffect hOther key
    | listed d | applied d | deleted d =>
      obtain ⟨e, _, hHeld⟩ := hEffect
      exact (hHeld key).trans (if_neg fun hBoth => hOther hBoth.1)

def Arrival.Removes (w : Watched) (a : Arrival) : Prop :=
  a = .notice w .listingEnds ∨ ∃ d, a = .notice w (.deleted d)

theorem Effect.isSome {w : Watched} {before after : Cluster} {a : Arrival}
    (h : Effect w before after a) (hKeeps : ¬ a.Removes w) {key : String}
    (hHeld : (before.held w key).isSome) : (after.held w key).isSome := by
  cases a with
  | restart v => rwa [h key]
  | notice v n =>
    cases n with
    | listingStarts => rwa [h key]
    | listed d | applied d =>
      obtain ⟨e, _, hStored⟩ := h
      rw [hStored]
      split
      · rfl
      · exact hHeld
    | deleted d =>
      obtain ⟨e, _, hDropped⟩ := h
      have hOther : ¬ (v = w ∧ key = e.1) := by
        rintro ⟨rfl, _⟩
        exact hKeeps (.inr ⟨d, rfl⟩)
      rwa [hDropped, if_neg hOther]
    | listingEnds =>
      have hOther : v ≠ w := by
        rintro rfl
        exact hKeeps (.inl rfl)
      rwa [h hOther]

/-- While a watch lists, it has seen the keys of what it has listed, and this is kept as last
listed. -/
structure Mirrors (w : Watched) (ds : List Described) (f : Feed) : Prop where
  seen : ∀ key, key ∈ f.seen w ↔ (lastEntry w ds key).isSome
  held : ∀ key x, lastEntry w ds key = some x → f.cluster.held w key = some x

theorem Mirrors.listed {w : Watched} {ds : List Described} {f : Feed} (h : Mirrors w ds f)
    {d : Described} (hNamed : d.Named w) :
    Mirrors w (ds ++ [d]) (f.step (.notice w (.listed d))) := by
  obtain ⟨e, he, hKey⟩ := hNamed.kept
  constructor
  · intro key
    have hSeen : (f.step (.notice w (.listed d))).seen w = e.1 :: f.seen w := by
      simp [Feed.step, Session.receive, hKey]
    rw [hSeen, List.mem_cons, lastEntry_append he, h.seen]
    by_cases hSame : key = e.1
    · simp [hSame]
    · simp [hSame]
  · intro key x hx
    have hHeld : (f.step (.notice w (.listed d))).cluster.held w key =
        if w = w ∧ key = e.1 then some e.2 else f.cluster.held w key := f.cluster.held_put he w key
    rw [lastEntry_append he] at hx
    rw [hHeld]
    by_cases hSame : key = e.1
    · rw [if_pos hSame] at hx
      rwa [if_pos ⟨rfl, hSame⟩]
    · rw [if_neg hSame] at hx
      rw [if_neg fun hBoth => hSame hBoth.2]
      exact h.held key x hx

theorem listing_mirrored (c : Cluster) (w : Watched) {past : List Arrival} (h : Admissible past)
    (hPhase : phase? w past = some .listing) :
    Mirrors w (listed w past) ((Feed.start c).after past) := by
  induction past using List.reverseRecOn with
  | nil => cases hPhase
  | append_singleton past a ih =>
    have hNamed : ∀ v n, a = .notice v n → n.Named v := by
      rintro v n rfl
      exact h.named v n (by simp)
    obtain ⟨p, hBefore⟩ := Option.isSome_iff_exists.mp (h.init.phases w)
    rw [phase?_append, hBefore] at hPhase
    rw [listed_append, Feed.after_singleton]
    -- Only arrivals of the watch itself begin its listing or go on with it. One of the other watch
    -- touches neither the keys that it has seen nor what is kept of its kind.
    by_cases hOwn : a.watch = w
    · cases a with
      | restart v =>
        obtain rfl : v = w := hOwn
        simp [Phase.after] at hPhase
      | notice v n =>
        obtain rfl : v = w := hOwn
        have hNext : p.next? n = some .listing := by simpa [Phase.after] using hPhase
        cases n with
        | listingStarts =>
          simp only [listedAfter, if_true]
          exact ⟨by simp [Feed.step, Session.receive, lastEntry], by simp [lastEntry]⟩
        | listed d =>
          have hListing : p = .listing := by
            cases p with
            | listing => rfl
            | waiting | watching => cases hNext
          simp only [listedAfter, if_true]
          exact (ih h.init (hListing ▸ hBefore)).listed (hNamed v _ rfl)
        | listingEnds | applied | deleted => cases p <;> cases hNext
    · obtain ⟨hSame, hListed⟩ : Phase.after w (some p) a = some p ∧
          listedAfter w (listed w past) a = listed w past := by
        cases a with
        | restart v => exact ⟨if_neg hOwn, rfl⟩
        | notice v n =>
          have hNe : v ≠ w := hOwn
          exact ⟨if_neg hNe, by cases n <;> simp [listedAfter, hNe]⟩
      obtain ⟨hSeen, hHeld⟩ := ((Feed.start c).after past).step_other hNamed hOwn
      rw [hSame] at hPhase
      rw [hListed]
      have hMirrors := ih h.init (hBefore.trans hPhase)
      constructor
      · intro key
        rw [hSeen, hMirrors.seen]
      · intro key x hx
        rw [hHeld, hMirrors.held key x hx]

theorem listing_ended (c : Cluster) (w : Watched) {past : List Arrival}
    (h : Admissible (past ++ [.notice w .listingEnds])) (key : String) :
    ((Feed.start c).after (past ++ [.notice w .listingEnds])).cluster.held w key =
      lastEntry w (listed w past) key := by
  have hListing : phase? w past = some .listing := by
    have hSome := h.phases w
    obtain ⟨p, hBefore⟩ := Option.isSome_iff_exists.mp (h.init.phases w)
    rw [phase?_append, hBefore] at hSome
    cases p with
    | listing => exact hBefore
    | waiting | watching => simp [Phase.after, Phase.next?] at hSome
  have hMirrors := listing_mirrored c w h.init hListing
  rw [Feed.after_singleton]
  show (Cluster.markSynced (Cluster.keepOnly _ w _) w).held w key = _
  rw [Cluster.held_keepOnly]
  cases hLast : lastEntry w (listed w past) key with
  | none =>
    have hUnseen : key ∉ ((Feed.start c).after past).seen w := by simp [hMirrors.seen, hLast]
    exact if_pos ⟨rfl, hUnseen⟩
  | some x =>
    have hSeen : key ∈ ((Feed.start c).after past).seen w := by simp [hMirrors.seen, hLast]
    rw [if_neg fun hBoth => hBoth.2 hSeen]
    exact hMirrors.held key x hLast

theorem Cluster.mem_nodeNames (c : Cluster) (name : String) :
    name ∈ c.nodeNames ↔ (c.held .nodes name).isSome := by
  simp [nodeNames, held, Keyed.mem_keys]

theorem Cluster.pods_find? (c : Cluster) (key : String) (p : Pod) :
    c.pods.find? key = some p ↔ c.held .pods key = some (some p) := by
  simp [held]

theorem mem_listed {w : Watched} {past : List Arrival} {d : Described} (h : d ∈ listed w past) :
    .notice w (.listed d) ∈ past := by
  induction past using List.reverseRecOn with
  | nil => cases h
  | append_singleton past a ih =>
    have hOld : d ∈ listed w past → .notice w (.listed d) ∈ past ++ [a] :=
      fun hd => List.mem_append_left _ (ih hd)
    rw [listed_append] at h
    cases a with
    | restart v => exact hOld h
    | notice v n =>
      cases n with
      | listingStarts =>
        simp only [listedAfter] at h
        split at h
        · cases h
        · exact hOld h
      | listed x =>
        simp only [listedAfter] at h
        split at h
        · rename_i hOwn
          rcases List.mem_append.mp h with hd | hNew
          · exact hOld hd
          · rw [List.mem_singleton.mp hNew, hOwn]
            exact List.mem_append_right _ (List.mem_singleton_self _)
        · exact hOld h
      | listingEnds | applied | deleted => exact hOld h

theorem lastEntry_nodes (ds : List Described) (name : String) :
    (lastEntry .nodes ds name).isSome ↔ ∃ d ∈ ds, d.name = some name := by
  have hKept : ∀ d : Described, ((d.kept? .nodes).bind fun e =>
      if name = e.1 then some e.2 else none).isSome ↔ d.name = some name := by
    intro d
    cases hName : d.name with
    | none => simp [Described.kept?, hName]
    | some other =>
      by_cases hSame : name = other
      · simp [Described.kept?, hName, hSame]
      · simp [Described.kept?, hName, hSame, Ne.symm hSame]
  simp [lastEntry, List.findSome?_isSome_iff, hKept]

def LastVersion (ds : List Described) (p : Pod) : Prop :=
  ∃ u d v, ds = u ++ d :: v ∧ Pod.ofDescribed? d = some p ∧
    ∀ x ∈ v, ¬ (x.name = d.name ∧ x.space = d.space)

theorem kept_pod {d : Described} {p : Pod} (h : Pod.ofDescribed? d = some p) :
    d.kept? .pods = some (p.key, some p) := by
  simp [Described.kept?, h]

theorem lastEntry_pods {ds : List Described} (h : ∀ d ∈ ds, d.Named .pods) (key : String)
    (p : Pod) :
    lastEntry .pods ds key = some (some p) ↔ key = p.key ∧ LastVersion ds p := by
  rw [lastEntry, List.findSome?_eq_some_iff]
  constructor
  · rintro ⟨v, d, u, hSplit, hFound, hLater⟩
    have hOrder : ds = u.reverse ++ d :: v.reverse := by
      rw [← List.reverse_reverse ds, hSplit]
      simp
    have hNamed : d.Named .pods := h d (by simp [hOrder])
    cases hPod : Pod.ofDescribed? d with
    | none => simp [Described.kept?, hPod] at hFound
    | some q =>
      simp only [kept_pod hPod, Option.bind_some, Option.ite_none_right_eq_some,
        Option.some.injEq] at hFound
      obtain ⟨rfl, rfl⟩ := hFound
      refine ⟨rfl, u.reverse, d, v.reverse, hOrder, hPod, ?_⟩
      intro x hx hSame
      have hx' : x ∈ v := List.mem_reverse.mp hx
      have hNamed' : x.Named .pods := h x (by simp [hOrder, hx'])
      obtain ⟨e, he, _⟩ := hNamed'.kept
      have hKey : e.1 = q.key := (hNamed'.same_key hNamed he (kept_pod hPod)).mpr hSame
      simpa [he, hKey] using hLater x hx'
  · rintro ⟨rfl, u, d, v, rfl, hPod, hLater⟩
    have hNamed : d.Named .pods := h d (by simp)
    refine ⟨v.reverse, d, u.reverse, by simp, by simp [kept_pod hPod], ?_⟩
    intro x hx
    have hx' : x ∈ v := List.mem_reverse.mp hx
    have hNamed' : x.Named .pods := h x (by simp [hx'])
    obtain ⟨e, he, _⟩ := hNamed'.kept
    have hKey : p.key ≠ e.1 := by
      intro hSame
      exact hLater x hx' ((hNamed'.same_key hNamed he (kept_pod hPod)).mp hSame.symm)
    simp [he, hKey]

def Cluster.synced (c : Cluster) : Watched → Bool
  | .nodes => c.nodesSynced
  | .pods => c.podsSynced

theorem Cluster.isSynced_iff (c : Cluster) : c.isSynced = true ↔ ∀ w, c.synced w = true := by
  rw [isSynced, Bool.and_eq_true]
  constructor
  · rintro ⟨hNodes, hPods⟩ w
    cases w with
    | nodes => exact hNodes
    | pods => exact hPods
  · exact fun h => ⟨h .nodes, h .pods⟩

theorem Cluster.put_synced (c : Cluster) (v w : Watched) (d : Described) :
    (c.put v d).synced w = c.synced w := by
  cases v with
  | nodes =>
    unfold put
    cases d.name <;> cases w <;> rfl
  | pods =>
    unfold put
    cases Pod.ofDescribed? d <;> cases w <;> rfl

theorem Cluster.drop_synced (c : Cluster) (v w : Watched) (d : Described) :
    (c.drop v d).synced w = c.synced w := by
  cases v with
  | nodes =>
    unfold drop
    cases d.name <;> cases w <;> rfl
  | pods => cases w <;> rfl

theorem Feed.step_synced (f : Feed) (a : Arrival) (w : Watched) :
    (f.step a).cluster.synced w = true ↔
      f.cluster.synced w = true ∨ a = .notice w .listingEnds := by
  cases a with
  | restart v => simp [step]
  | notice v n =>
    cases n with
    | listingStarts => simp [step, Session.receive]
    | listed d => simp [step, Session.receive, Cluster.put_synced]
    | applied d => simp [step, Session.receive, Cluster.put_synced]
    | deleted d => simp [step, Session.receive, Cluster.drop_synced]
    | listingEnds =>
      cases v <;> cases w <;>
        simp [step, Session.receive, Cluster.markSynced, Cluster.keepOnly, Cluster.synced]

theorem Feed.after_synced (f : Feed) (past : List Arrival) (w : Watched) :
    (f.after past).cluster.synced w = true ↔
      f.cluster.synced w = true ∨ .notice w .listingEnds ∈ past := by
  induction past generalizing f with
  | nil => simp [after]
  | cons a rest ih =>
    have hRest := ih (f.step a)
    rw [step_synced] at hRest
    show ((f.step a).after rest).cluster.synced w = true ↔ _
    rw [hRest, List.mem_cons, or_assoc, @eq_comm _ a]

end GatewayTelemetry
