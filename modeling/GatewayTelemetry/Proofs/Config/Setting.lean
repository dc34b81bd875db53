import GatewayTelemetry.Config.Load
import GatewayTelemetry.Proofs.Schema.ReadBack
import GatewayTelemetry.Proofs.Schema.Row
import GatewayTelemetry.Proofs.Yaml.Scalar

/-! # Settings one by one

A configuration is a value for each setting, of the type that the kind of the setting has. A mapping
is read as a configuration just when each of its keys is one of a setting, none is given twice, and
each value denotes one of its setting's type. Settings that a mapping does not give have their
defaults.
-/

namespace GatewayTelemetry

namespace Config

def Kind.Value : Kind → Type
  | word | size => UInt64
  | port => UInt16
  | text | path => String
  | flag => Bool

def Kind.decoder : (k : Kind) → Decoder k.Value
  | word => Decoder.uint64
  | size => Decoder.size
  | port => Decoder.uint16
  | text => Decoder.text
  | path => Decoder.path
  | flag => Decoder.bool

inductive Setting where
  | pollInterval
  | rateLimit
  | prometheusUrl
  | prometheusTimeout
  | queryWindow
  | queryStep
  | exporterMarker
  | exporterPort
  | device
  | sysfsRoot
  | settingsPath
  | gatewayNamespace
  | channelCapacity
  | nodePaused
  | multiClusterPaused
  deriving Repr, DecidableEq

namespace Setting

def all : List Setting :=
  [pollInterval, rateLimit, prometheusUrl, prometheusTimeout, queryWindow, queryStep,
    exporterMarker, exporterPort, device, sysfsRoot, settingsPath, gatewayNamespace,
    channelCapacity, nodePaused, multiClusterPaused]

def key : Setting → String
  | pollInterval => "poll_interval_secs"
  | rateLimit => "rate_limit_secs"
  | prometheusUrl => "prometheus_url"
  | prometheusTimeout => "prometheus_timeout_secs"
  | queryWindow => "query_window_secs"
  | queryStep => "query_step_secs"
  | exporterMarker => "exporter_marker"
  | exporterPort => "exporter_port"
  | device => "multi_cluster_device"
  | sysfsRoot => "sysfs_root"
  | settingsPath => "settings_path"
  | gatewayNamespace => "submariner_namespace"
  | channelCapacity => "event_channel_capacity"
  | nodePaused => "node_watch_paused"
  | multiClusterPaused => "multi_cluster_watch_paused"

def kind : Setting → Kind
  | pollInterval | rateLimit | prometheusTimeout | queryWindow | queryStep => .word
  | channelCapacity => .size
  | exporterPort => .port
  | prometheusUrl | exporterMarker | device | gatewayNamespace => .text
  | sysfsRoot | settingsPath => .path
  | nodePaused | multiClusterPaused => .flag

theorem mem_all (s : Setting) : s ∈ all := by cases s <;> decide

theorem key_injective : Function.Injective key := by
  intro s t h
  have hDistinct : (all.map key).Nodup := by decide
  exact List.inj_on_of_nodup_map hDistinct s.mem_all t.mem_all h

end Setting

theorem settings_eq : settings = Setting.all.map fun s => (s.key, s.kind) := rfl

def get (c : Config) : (s : Setting) → s.kind.Value
  | .pollInterval => c.pollInterval
  | .rateLimit => c.rateLimit
  | .prometheusUrl => c.prometheusUrl
  | .prometheusTimeout => c.prometheusTimeout
  | .queryWindow => c.queryWindow
  | .queryStep => c.queryStep
  | .exporterMarker => c.exporterMarker
  | .exporterPort => c.exporterPort
  | .device => c.device
  | .sysfsRoot => c.sysfsRoot
  | .settingsPath => c.settingsPath
  | .gatewayNamespace => c.gatewayNamespace
  | .channelCapacity => c.channelCapacity
  | .nodePaused => c.nodePaused
  | .multiClusterPaused => c.multiClusterPaused

def ofValues (v : (s : Setting) → s.kind.Value) : Config :=
  ⟨v .pollInterval, v .rateLimit, v .prometheusUrl, v .prometheusTimeout, v .queryWindow,
    v .queryStep, v .exporterMarker, v .exporterPort, v .device, v .sysfsRoot, v .settingsPath,
    v .gatewayNamespace, v .channelCapacity, v .nodePaused, v .multiClusterPaused⟩

theorem get_ofValues (v : (s : Setting) → s.kind.Value) (s : Setting) :
    (ofValues v).get s = v s := by
  cases s <;> rfl

theorem ext_get {c d : Config} (h : ∀ s, c.get s = d.get s) : c = d :=
  congrArg ofValues (funext h : c.get = d.get)

theorem ofRow_eq_ok_iff {r : Row} {c : Config} :
    ofRow r = .ok c ↔
      ∀ s : Setting, r.getD s.key s.kind.decoder (standard.get s) = .ok (c.get s) := by
  simp only [ofRow, bind_eq_ok_iff]
  constructor
  · rintro ⟨_, h1, _, h2, _, h3, _, h4, _, h5, _, h6, _, h7, _, h8, _, h9, _, h10, _, h11, _, h12,
      _, h13, _, h14, _, h15, ⟨⟩⟩ s
    cases s <;> assumption
  · intro h
    exact ⟨_, h .pollInterval, _, h .rateLimit, _, h .prometheusUrl, _, h .prometheusTimeout,
      _, h .queryWindow, _, h .queryStep, _, h .exporterMarker, _, h .exporterPort, _, h .device,
      _, h .sysfsRoot, _, h .settingsPath, _, h .gatewayNamespace, _, h .channelCapacity,
      _, h .nodePaused, _, h .multiClusterPaused, rfl⟩

theorem columns_eq : layout.columns = Setting.all.map fun s => .may s.key s.kind.decoder := rfl

theorem names_eq : layout.names = Setting.all.map Setting.key := rfl

def Cell (s : Setting) : Option Json → s.kind.Value → Prop :=
  Meaning.optional (fun j v => s.kind.decoder j = .ok v) (standard.get s)

theorem decode_obj_eq_ok_iff {fields : List (String × Json)} {c : Config} :
    decode (.obj fields) = .ok c ↔
      ((∀ f ∈ fields, ∃ s : Setting, s.key = f.1) ∧ (fields.map (·.1)).Nodup) ∧
        ∀ s : Setting, Cell s ((Json.obj fields).get? s.key) (c.get s) := by
  have hReads : ∀ s : Setting, s.kind.decoder.Reads fun j v => s.kind.decoder j = .ok v :=
    fun _ _ _ => Iff.rfl
  have hDeclared : ∀ key : String, key ∈ layout.names ↔ ∃ s : Setting, s.key = key := by
    intro key
    rw [names_eq, List.mem_map]
    exact ⟨fun ⟨s, _, hKey⟩ => ⟨s, hKey⟩, fun ⟨s, hKey⟩ => ⟨s, s.mem_all, hKey⟩⟩
  have hRow : ∀ s : Setting,
      ((Layout.rowOf layout.columns
        (layout.columns.map fun c => (Json.obj fields).get? c.name)).getD
          s.key s.kind.decoder (standard.get s) = .ok (c.get s)) ↔
        Cell s ((Json.obj fields).get? s.key) (c.get s) := fun s =>
    (hReads s).getD_of_cell (Layout.find?_rowOf_map _ ((hDeclared s.key).mpr ⟨s, rfl⟩)) _
  show (layout.keyedRow fields >>= ofRow) = .ok c ↔ _
  simp only [bind_eq_ok_iff, Layout.keyedRow_eq_ok_iff rfl (by decide : layout.names.Nodup),
    ofRow_eq_ok_iff, hDeclared]
  constructor
  · rintro ⟨_, ⟨hKeys, _, rfl⟩, hCells⟩
    exact ⟨hKeys, fun s => (hRow s).mp (hCells s)⟩
  · rintro ⟨hKeys, hCells⟩
    refine ⟨_, ⟨hKeys, ?_, rfl⟩, fun s => (hRow s).mpr (hCells s)⟩
    rw [columns_eq, List.forall_mem_map]
    exact fun s _ => (hReads s).fits_may (hCells s)

/-- A number denotes a value only within the range of the kind. -/
def Kind.Denotes (n : Yaml.Node) : (k : Kind) → k.Value → Prop
  | .word, w | .size, w => n.DenotesNumber (UInt64.toNat w)
  | .port, p => n.DenotesNumber (UInt16.toNat p)
  | .text, s | .path, s => n.DenotesText s
  | .flag, b => n.DenotesFlag b

structure WellTyped (members : List (String × Yaml.Node)) : Prop where
  denotes : ∀ m ∈ members, ∃ s : Setting, s.key = m.1 ∧ ∃ v, s.kind.Denotes m.2 v
  distinct : (members.map (·.1)).Nodup

/-- The value of a setting by a mapping over the defaults. -/
inductive Sets (members : List (String × Yaml.Node)) : (s : Setting) → s.kind.Value → Prop
  | given {s : Setting} {n : Yaml.Node} {v : s.kind.Value} (hMember : (s.key, n) ∈ members)
      (hDenotes : s.kind.Denotes n v) : Sets members s v
  | missing {s : Setting} (h : ∀ n, (s.key, n) ∉ members) : Sets members s (standard.get s)

variable {members : List (String × Yaml.Node)} {n : Yaml.Node}

theorem uint16_ofUInt64_iff {w : UInt64} {p : UInt16} :
    Decoder.uint16 (.ofUInt64 w) = .ok p ↔ w.toNat = p.toNat := by
  simp only [Decoder.uint16, map_eq_ok_iff, Decoder.bounded_eq_ok_iff]
  constructor
  · rintro ⟨_, ⟨⟨_, hRange⟩, _, hSame⟩, rfl⟩
    cases hSame
    rw [Int.toNat_natCast, Nat.toUInt16_eq, UInt16.toNat_ofNat_of_lt' (Int.ofNat_lt.mp hRange)]
  · intro h
    have hRange : (w.toNat : Int) < UInt16.size := h ▸ Int.ofNat_lt.mpr p.toNat_lt_size
    refine ⟨_, ⟨⟨Int.natCast_nonneg _, hRange⟩, _, rfl⟩, ?_⟩
    rw [h, Int.toNat_natCast, Nat.toUInt16_eq, UInt16.ofNat_toNat]

theorem exists_map_iff {α : Type} {o : Option α} {encode : α → Json} {d : Decoder α}
    (h : ∀ a, d (encode a) = .ok a) {a : α} :
    (∃ j, o.map encode = some j ∧ d j = .ok a) ↔ o = some a := by
  cases o with
  | none => simp
  | some found => simp [h]

theorem exists_port_iff {p : UInt16} :
    (∃ j, n.word?.map Json.ofUInt64 = some j ∧ Decoder.uint16 j = .ok p) ↔
      n.DenotesNumber p.toNat := by
  have hWord : p.toNat = p.toUInt64.toNat := rfl
  rw [hWord, ← Yaml.Node.word?_eq_some_iff]
  cases n.word? with
  | none => simp
  | some found => simp [uint16_ofUInt64_iff, ← UInt64.toNat_inj]

theorem Kind.denotes_iff (k : Kind) (v : k.Value) :
    (∃ j, k.ofNode? n = some j ∧ k.decoder j = .ok v) ↔ k.Denotes n v := by
  cases k with
  | word =>
    refine Iff.trans ?_ Yaml.Node.word?_eq_some_iff
    exact exists_map_iff (d := Decoder.uint64) Decoder.uint64_ofUInt64
  | size =>
    refine Iff.trans ?_ Yaml.Node.word?_eq_some_iff
    exact exists_map_iff (d := Decoder.size) Decoder.size_ofUInt64
  | port => exact exists_port_iff
  | text =>
    refine Iff.trans ?_ Yaml.Node.text?_eq_some_iff
    exact exists_map_iff (d := Decoder.text) fun _ => rfl
  | path =>
    refine Iff.trans ?_ Yaml.Node.text?_eq_some_iff
    exact exists_map_iff (d := Decoder.path) fun _ => rfl
  | flag =>
    refine Iff.trans ?_ Yaml.Node.flag?_eq_some_iff
    exact exists_map_iff (d := Decoder.bool) fun _ => rfl

theorem lookup_settings_eq_some_iff {key : String} {k : Kind} :
    settings.lookup key = some k ↔ ∃ s : Setting, s.key = key ∧ s.kind = k := by
  constructor
  · intro h
    obtain ⟨front, back, hTable, _⟩ := List.lookup_eq_some_iff.mp h
    have hMember : (key, k) ∈ settings := by
      rw [hTable]
      exact List.mem_append_right front List.mem_cons_self
    rw [settings_eq, List.mem_map] at hMember
    obtain ⟨s, _, hSame⟩ := hMember
    cases hSame
    exact ⟨s, rfl, rfl⟩
  · rintro ⟨s, rfl, rfl⟩
    cases s <;> rfl

theorem assignment?_eq_some_iff {m : String × Yaml.Node} {f : String × Json} :
    assignment? m = some f ↔
      ∃ s : Setting, s.key = m.1 ∧ f.1 = m.1 ∧ s.kind.ofNode? m.2 = some f.2 := by
  obtain ⟨key, node⟩ := m
  obtain ⟨name, j⟩ := f
  simp only [assignment?, Option.bind_eq_bind, Option.bind_eq_some_iff, lookup_settings_eq_some_iff]
  constructor
  · rintro ⟨_, ⟨s, rfl, rfl⟩, j, hNode, ⟨⟩⟩
    exact ⟨s, rfl, rfl, hNode⟩
  · rintro ⟨s, rfl, rfl, hNode⟩
    exact ⟨_, ⟨s, rfl, rfl⟩, j, hNode, rfl⟩

theorem isSome_assignment?_iff {m : String × Yaml.Node} :
    (assignment? m).isSome = true ↔
      ∃ s : Setting, s.key = m.1 ∧ (s.kind.ofNode? m.2).isSome = true := by
  simp only [Option.isSome_iff_exists, assignment?_eq_some_iff]
  constructor
  · rintro ⟨f, s, hKey, _, hNode⟩
    exact ⟨s, hKey, f.2, hNode⟩
  · rintro ⟨s, hKey, j, hNode⟩
    exact ⟨(m.1, j), s, hKey, rfl, hNode⟩

section Assigned

variable {fields : List (String × Json)} (h : members.mapM assignment? = some fields)

include h

theorem keys_of_assigned : members.map (·.1) = fields.map (·.1) := by
  have hKeys := (mapM_eq_some_iff.mp h).imp fun m f hAssigned => by
    obtain ⟨_, _, hKey, _⟩ := assignment?_eq_some_iff.mp hAssigned
    exact hKey.symm
  rw [← List.forall₂_eq_eq_eq, List.forall₂_map_left_iff, List.forall₂_map_right_iff]
  exact hKeys

theorem mem_assigned_iff {s : Setting} {j : Json} :
    (s.key, j) ∈ fields ↔ ∃ n, (s.key, n) ∈ members ∧ s.kind.ofNode? n = some j := by
  obtain ⟨_, rfl⟩ := mapM_eq_some_iff_filterMap.mp h
  simp only [List.mem_filterMap, assignment?_eq_some_iff]
  constructor
  · rintro ⟨⟨_, n⟩, hMember, t, rfl, hKey, hNode⟩
    obtain rfl := Setting.key_injective hKey
    exact ⟨n, hMember, hNode⟩
  · rintro ⟨n, hMember, hNode⟩
    exact ⟨_, hMember, s, rfl, rfl, hNode⟩

theorem exists_assigned {s : Setting} (hMember : (s.key, n) ∈ members) :
    ∃ j, s.kind.ofNode? n = some j ∧ (s.key, j) ∈ fields := by
  obtain ⟨t, hKey, hNode⟩ :=
    isSome_assignment?_iff.mp ((mapM_eq_some_iff_filterMap.mp h).1 _ hMember)
  obtain rfl := Setting.key_injective hKey
  obtain ⟨j, hNode⟩ := Option.isSome_iff_exists.mp hNode
  exact ⟨j, hNode, (mem_assigned_iff h).mpr ⟨n, hMember, hNode⟩⟩

theorem cell_assigned_iff (hDistinct : (members.map (·.1)).Nodup) {s : Setting}
    {v : s.kind.Value} : Cell s ((Json.obj fields).get? s.key) v ↔ Sets members s v := by
  rw [keys_of_assigned h] at hDistinct
  constructor
  · intro hCell
    generalize hGet : (Json.obj fields).get? s.key = cell at hCell
    cases hCell with
    | absent =>
      refine .missing fun n hMember => ?_
      obtain ⟨j, _, hField⟩ := exists_assigned h hMember
      cases hGet.symm.trans ((Layout.get?_eq_some_iff hDistinct).mpr hField)
    | given hRead =>
      obtain ⟨n, hMember, hNode⟩ :=
        (mem_assigned_iff h).mp ((Layout.get?_eq_some_iff hDistinct).mp hGet)
      exact .given hMember ((s.kind.denotes_iff v).mp ⟨_, hNode, hRead⟩)
  · rintro (⟨hMember, hDenotes⟩ | hMissing)
    · obtain ⟨j, hNode, hRead⟩ := (s.kind.denotes_iff v).mpr hDenotes
      rw [(Layout.get?_eq_some_iff hDistinct).mpr ((mem_assigned_iff h).mpr ⟨_, hMember, hNode⟩)]
      exact .given hRead
    · cases hGet : (Json.obj fields).get? s.key with
      | none => exact .absent
      | some j =>
        obtain ⟨n, hMember, _⟩ :=
          (mem_assigned_iff h).mp ((Layout.get?_eq_some_iff hDistinct).mp hGet)
        exact absurd hMember (hMissing n)

end Assigned

theorem Sets.denotes {s : Setting} {v : s.kind.Value} (h : Sets members s v)
    (hDistinct : (members.map (·.1)).Nodup) (hMember : (s.key, n) ∈ members) :
    s.kind.Denotes n v := by
  cases h with
  | given hOther hDenotes =>
    cases List.inj_on_of_nodup_map hDistinct hMember hOther rfl
    exact hDenotes
  | missing hMissing => exact absurd hMember (hMissing n)

theorem Kind.Denotes.unique {k : Kind} {v w : k.Value} (hv : k.Denotes n v) (hw : k.Denotes n w) :
    v = w := by
  obtain ⟨j, hNode, hRead⟩ := (k.denotes_iff v).mpr hv
  obtain ⟨other, hOther, hSame⟩ := (k.denotes_iff w).mpr hw
  obtain rfl := Option.some.inj (hNode.symm.trans hOther)
  exact Except.ok.inj (hRead.symm.trans hSame)

theorem Sets.unique {s : Setting} {v w : s.kind.Value} (hDistinct : (members.map (·.1)).Nodup)
    (hv : Sets members s v) (hw : Sets members s w) : v = w := by
  cases hv with
  | given hMember hDenotes => exact hDenotes.unique (hw.denotes hDistinct hMember)
  | missing hMissing =>
    cases hw with
    | given hMember _ => exact absurd hMember (hMissing _)
    | missing _ => rfl

theorem ofMembers?_eq_some_iff {c : Config} :
    ofMembers? members = some c ↔ WellTyped members ∧ ∀ s : Setting, Sets members s (c.get s) := by
  simp only [ofMembers?, Option.bind_eq_bind, Option.bind_eq_some_iff, toOption_eq_some_iff,
    decode_obj_eq_ok_iff]
  constructor
  · rintro ⟨fields, hAssigned, ⟨_, hDistinct⟩, hCells⟩
    rw [← keys_of_assigned hAssigned] at hDistinct
    have hSets : ∀ s : Setting, Sets members s (c.get s) := fun s =>
      (cell_assigned_iff hAssigned hDistinct).mp (hCells s)
    refine ⟨⟨?_, hDistinct⟩, hSets⟩
    -- Which value a member denotes is known from what is set, since no other member has its key.
    rintro ⟨key, n⟩ hMember
    obtain ⟨s, rfl, _⟩ :=
      isSome_assignment?_iff.mp ((mapM_eq_some_iff_filterMap.mp hAssigned).1 _ hMember)
    exact ⟨s, rfl, c.get s, (hSets s).denotes hDistinct hMember⟩
  · rintro ⟨hTyped, hSets⟩
    have hSome : ∀ m ∈ members, (assignment? m).isSome = true := by
      intro m hMember
      obtain ⟨s, hKey, v, hDenotes⟩ := hTyped.denotes m hMember
      obtain ⟨j, hNode, _⟩ := (s.kind.denotes_iff v).mpr hDenotes
      exact isSome_assignment?_iff.mpr ⟨s, hKey, hNode ▸ rfl⟩
    have hAssigned : members.mapM assignment? = some (members.filterMap assignment?) :=
      mapM_eq_some_iff_filterMap.mpr ⟨hSome, rfl⟩
    refine ⟨_, hAssigned, ⟨?_, ?_⟩, fun s =>
      (cell_assigned_iff hAssigned hTyped.distinct).mpr (hSets s)⟩
    · intro f hf
      have hKey : f.1 ∈ members.map (·.1) := keys_of_assigned hAssigned ▸ List.mem_map_of_mem hf
      obtain ⟨m, hMember, hSame⟩ := List.mem_map.mp hKey
      obtain ⟨s, hKey, _⟩ := hTyped.denotes m hMember
      exact ⟨s, hKey.trans hSame⟩
    · rw [← keys_of_assigned hAssigned]
      exact hTyped.distinct

theorem WellTyped.exists_sets (h : WellTyped members) :
    ∃ c : Config, ∀ s : Setting, Sets members s (c.get s) := by
  have hValue : ∀ s : Setting, ∃ v, Sets members s v := by
    intro s
    by_cases hGiven : ∃ n, (s.key, n) ∈ members
    · obtain ⟨n, hMember⟩ := hGiven
      obtain ⟨t, hKey, v, hDenotes⟩ := h.denotes _ hMember
      obtain rfl := Setting.key_injective hKey
      exact ⟨v, .given hMember hDenotes⟩
    · exact ⟨_, .missing fun n hMember => hGiven ⟨n, hMember⟩⟩
  choose v hSets using hValue
  exact ⟨ofValues v, fun s => (get_ofValues v s).symm ▸ hSets s⟩

end Config

end GatewayTelemetry
