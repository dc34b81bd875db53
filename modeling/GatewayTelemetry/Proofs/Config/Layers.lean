import GatewayTelemetry.Proofs.Config.Setting
import GatewayTelemetry.Proofs.Files.Lookup

/-! # What the layers make

Each setting has the value of the highest layer that gives it: the overrides, the configuration
file, the defaults. The configuration that results is checked, whichever layers its values are from,
and the first check that it violates is reported. A file that is no well-typed mapping is refused
before the overrides are looked at.
-/

namespace GatewayTelemetry

namespace Config

def Overrides.value? (o : Overrides) : (s : Setting) → Option s.kind.Value
  | .pollInterval => o.pollInterval
  | .prometheusUrl => o.prometheusUrl
  | _ => Option.none

/-- The value of a setting by the overrides, or below them by the file over the defaults. -/
inductive Decides (o : Overrides) (members : List (String × Yaml.Node)) :
    (s : Setting) → s.kind.Value → Prop
  | override {s : Setting} {v : s.kind.Value} (h : o.value? s = some v) : Decides o members s v
  | below {s : Setting} {v : s.kind.Value} (h : o.value? s = Option.none)
      (hSets : Sets members s v) : Decides o members s v

def Effective (o : Overrides) (members : List (String × Yaml.Node)) (c : Config) : Prop :=
  ∀ s : Setting, Decides o members s (c.get s)

variable {o : Overrides} {members : List (String × Yaml.Node)} {c : Config}

theorem get_apply (o : Overrides) (c : Config) (s : Setting) :
    (o.apply c).get s = (o.value? s).getD (c.get s) := by
  cases s <;> rfl

theorem Decides.unique {s : Setting} {v w : s.kind.Value} (hDistinct : (members.map (·.1)).Nodup)
    (hv : Decides o members s v) (hw : Decides o members s w) : v = w := by
  rcases hv with hv | ⟨hNone, hv⟩ <;> rcases hw with hw | ⟨hOther, hw⟩
  · exact Option.some.inj (hv.symm.trans hw)
  · cases hOther.symm.trans hv
  · cases hNone.symm.trans hw
  · exact hv.unique hDistinct hw

theorem effective_apply (h : ofMembers? members = some c) : Effective o members (o.apply c) := by
  intro s
  rw [get_apply]
  cases hOverride : o.value? s with
  | none => exact .below hOverride ((ofMembers?_eq_some_iff.mp h).2 s)
  | some v => exact .override hOverride

theorem effective_iff (h : ofMembers? members = some c) {d : Config} :
    Effective o members d ↔ d = o.apply c := by
  constructor
  · intro hEffective
    have hDistinct := (ofMembers?_eq_some_iff.mp h).1.distinct
    exact ext_get fun s => (hEffective s).unique hDistinct (effective_apply h s)
  · rintro rfl
    exact effective_apply h

/-- What a configuration must not be, under the fault that reports it. -/
def Violates (c : Config) : ConfigFault → Prop
  | .pollInterval => c.pollInterval = 0
  | .queryStep => c.queryStep = 0
  | .channelCapacity => c.channelCapacity = 0
  | .prometheusUrl => c.prometheusUrl = ""
  | .device => c.device = ""

def checks : List ConfigFault :=
  [.pollInterval, .queryStep, .channelCapacity, .prometheusUrl, .device]

structure FirstViolated (c : Config) (f : ConfigFault) : Prop where
  violates : c.Violates f
  first : ∃ front back, checks = front ++ f :: back ∧ ∀ e ∈ front, ¬ c.Violates e

/-- An outcome that is a configuration if it violates no check, and else the fault of the first that
it violates. -/
structure Validated (outcome : Except RunError Config) (c : Config) : Prop where
  ok_iff : ∀ d, outcome = .ok d ↔ d = c ∧ ∀ f, ¬ c.Violates f
  error_iff : ∀ e, outcome = .error e ↔ ∃ f, e = .agent (.config f) ∧ FirstViolated c f

instance (c : Config) : DecidablePred c.Violates
  | .pollInterval => inferInstanceAs (Decidable (c.pollInterval = 0))
  | .queryStep => inferInstanceAs (Decidable (c.queryStep = 0))
  | .channelCapacity => inferInstanceAs (Decidable (c.channelCapacity = 0))
  | .prometheusUrl => inferInstanceAs (Decidable (c.prometheusUrl = ""))
  | .device => inferInstanceAs (Decidable (c.device = ""))

theorem mem_checks (f : ConfigFault) : f ∈ checks := by cases f <;> decide

theorem fault?_eq_find? (c : Config) : c.fault? = checks.find? fun f => c.Violates f := by
  simp only [fault?, checks, List.find?_cons, List.find?_nil, Violates, ← String.isEmpty_iff]
  split_ifs <;> simp_all

theorem fault?_eq_none_iff : c.fault? = none ↔ ∀ f, ¬ c.Violates f := by
  rw [fault?_eq_find?, List.find?_eq_none]
  simp [mem_checks]

theorem fault?_eq_some_iff {f : ConfigFault} : c.fault? = some f ↔ FirstViolated c f := by
  rw [fault?_eq_find?, List.find?_eq_some_iff_append]
  simp only [decide_eq_true_eq, Bool.not_eq_true', decide_eq_false_iff_not]
  exact ⟨fun h => ⟨h.1, h.2⟩, fun h => ⟨h.violates, h.first⟩⟩

theorem validated_checked (c : Config) : Validated (c.checked.mapError .agent) c := by
  unfold checked
  cases hFault : c.fault? with
  | none =>
    have hValid := fault?_eq_none_iff.mp hFault
    refine ⟨fun d => ⟨fun h => ⟨(Except.ok.inj h).symm, hValid⟩, fun ⟨hSame, _⟩ => hSame ▸ rfl⟩, ?_⟩
    exact fun e => ⟨nofun, fun ⟨f, _, hFirst⟩ => absurd hFirst.violates (hValid f)⟩
  | some f =>
    have hFirst := fault?_eq_some_iff.mp hFault
    refine ⟨fun d => ⟨nofun, fun ⟨_, hValid⟩ => absurd hFirst.violates (hValid f)⟩, fun e => ?_⟩
    constructor
    · intro h
      exact ⟨f, (Except.error.inj h).symm, hFirst⟩
    · rintro ⟨g, rfl, hOther⟩
      have hSame := hFault.symm.trans (fault?_eq_some_iff.mpr hOther)
      cases hSame
      rfl

def Blank (text : String) : Prop := ∀ c ∈ text.toList, Text.isBlank c = true

/-- The members of the layer that a text is: none if it is blank, else those of its mapping. -/
inductive TextLayer (text : String) : List (String × Yaml.Node) → Prop
  | blank (hBlank : Blank text) : TextLayer text []
  | mapping {members : List (String × Yaml.Node)} (hBlank : ¬ Blank text)
      (hMembers : Yaml.members? text = some members) : TextLayer text members

inductive FileLayer (tree : FileTree) : Option String → List (String × Yaml.Node) → Prop
  | absent : FileLayer tree none []
  | read {path text : String} {members : List (String × Yaml.Node)}
      (hText : tree.readText path = .ok text) (hLayer : TextLayer text members) :
      FileLayer tree (some path) members

/-- A member under an unknown key, or with a node that denotes no value of its setting. -/
def Mistyped (m : String × Yaml.Node) : Prop :=
  ∀ s : Setting, s.key = m.1 → ∀ v, ¬ s.kind.Denotes m.2 v

/-- A text that is no mapping of known keys, none given twice, to values of their kinds. -/
inductive Malformed (text : String) : Prop
  | notMapping (hBlank : ¬ Blank text) (hMembers : Yaml.members? text = none) : Malformed text
  | mistyped {members : List (String × Yaml.Node)} {m : String × Yaml.Node}
      (hMembers : TextLayer text members) (hMember : m ∈ members) (hMistyped : Mistyped m) :
      Malformed text
  | repeated {members : List (String × Yaml.Node)} (hMembers : TextLayer text members)
      (hRepeated : ¬ (members.map (·.1)).Nodup) : Malformed text

variable {tree : FileTree} {path text : String}

theorem isBlankText_iff : Text.isBlankText text = true ↔ Blank text := by
  rw [Text.isBlankText, List.all_eq_true, Blank]

theorem not_blank_of_isBlankText (h : Text.isBlankText text = false) : ¬ Blank text := by
  rw [← isBlankText_iff, h]
  exact Bool.false_ne_true

theorem ofMembers?_nil : ofMembers? [] = some standard :=
  ofMembers?_eq_some_iff.mpr
    ⟨⟨nofun, List.nodup_nil⟩, fun _ => .missing fun _ => List.not_mem_nil⟩

theorem ofMembers?_eq_none (h : ¬ WellTyped members) : ofMembers? members = none := by
  rw [Option.eq_none_iff_forall_ne_some]
  exact fun c hRead => h (ofMembers?_eq_some_iff.mp hRead).1

theorem ofText?_of_layer (h : TextLayer text members) : ofText? text = ofMembers? members := by
  cases h with
  | blank hBlank => rw [ofText?, if_pos (isBlankText_iff.mpr hBlank), ofMembers?_nil]
  | mapping hBlank hMembers =>
    rw [ofText?, if_neg (mt isBlankText_iff.mp hBlank), hMembers, Option.bind_some]

theorem ofText?_of_malformed (h : Malformed text) : ofText? text = none := by
  cases h with
  | notMapping hBlank hMembers =>
    rw [ofText?, if_neg (mt isBlankText_iff.mp hBlank), hMembers, Option.bind_none]
  | mistyped hLayer hMember hMistyped =>
    rw [ofText?_of_layer hLayer]
    refine ofMembers?_eq_none fun hTyped => ?_
    obtain ⟨s, hKey, v, hDenotes⟩ := hTyped.denotes _ hMember
    exact hMistyped s hKey v hDenotes
  | repeated hLayer hRepeated =>
    rw [ofText?_of_layer hLayer]
    exact ofMembers?_eq_none fun hTyped => hRepeated hTyped.distinct

theorem layer_or_malformed (text : String) :
    (∃ members, TextLayer text members ∧ WellTyped members) ∨ Malformed text := by
  by_cases hBlank : Blank text
  · exact .inl ⟨[], .blank hBlank, nofun, List.nodup_nil⟩
  cases hMembers : Yaml.members? text with
  | none => exact .inr (.notMapping hBlank hMembers)
  | some members =>
    have hLayer : TextLayer text members := .mapping hBlank hMembers
    by_cases hRepeated : (members.map (·.1)).Nodup
    · by_cases hMistyped : ∃ m ∈ members, Mistyped m
      · obtain ⟨m, hMember, hMistyped⟩ := hMistyped
        exact .inr (.mistyped hLayer hMember hMistyped)
      · simp only [Mistyped, not_exists, not_and, not_forall, not_not] at hMistyped
        refine .inl ⟨members, hLayer, fun m hMember => ?_, hRepeated⟩
        obtain ⟨s, hKey, v, hDenotes⟩ := hMistyped m hMember
        exact ⟨s, hKey, v, hDenotes⟩
    · exact .inr (.repeated hLayer hRepeated)

theorem readText_of_lookup (h : tree.lookup path = .ok (.file text.toUTF8)) :
    tree.readText path = .ok text := FileTree.readText_eq_ok_iff.mpr h

theorem load_of_text (hText : tree.readText path = .ok text) (o : Overrides) :
    load tree (some path) o =
      match ofText? text with
      | some c => (o.apply c).checked.mapError .agent
      | none => .error (.invalidConfig path) := by
  rw [load, ofFile, hText]
  cases hRead : ofText? text <;> simp [hRead, bind, Except.bind]

theorem load_of_layer {file : Option String} (hLayer : FileLayer tree file members)
    (h : ofMembers? members = some c) (o : Overrides) :
    load tree file o = (o.apply c).checked.mapError .agent := by
  cases hLayer with
  | absent =>
    obtain rfl := Option.some.inj (h.symm.trans ofMembers?_nil)
    rfl
  | read hText hLayer => rw [load_of_text hText, ofText?_of_layer hLayer, h]

/-- Over a file that is well typed, or over none, there is one effective configuration, and loading
checks it. A malformed file is refused whatever the overrides are. -/
theorem load_by_layers (tree : FileTree) (o : Overrides) :
    (∀ file members, FileLayer tree file members → WellTyped members →
      ∃ c, (∀ d, Effective o members d ↔ d = c) ∧ Validated (load tree file o) c) ∧
    ∀ path text, tree.readText path = .ok text → Malformed text →
      load tree (some path) o = .error (.invalidConfig path) := by
  constructor
  · intro file members hLayer hTyped
    obtain ⟨c, hSets⟩ := hTyped.exists_sets
    have hRead : ofMembers? members = some c := ofMembers?_eq_some_iff.mpr ⟨hTyped, hSets⟩
    refine ⟨o.apply c, fun d => effective_iff hRead, ?_⟩
    rw [load_of_layer hLayer hRead o]
    exact validated_checked _
  · intro path text hText hMalformed
    rw [load_of_text hText, ofText?_of_malformed hMalformed]

def idle : String := "poll_interval_secs: 0\nexporter_port: 0x2390\n"

def unbound : String := "exporter_port: 65536\n"

def etc : FileTree :=
  .directory [("idle.yaml", .file idle.toUTF8), ("unbound.yaml", .file unbound.toUTF8)]

def plainText? : Yaml.Node → Option String
  | .scalar .plain none text => some text
  | _ => none

theorem eq_plain {n : Yaml.Node} {text : String} (h : plainText? n = some text) :
    n = .scalar .plain none text := by
  unfold plainText? at h
  split at h
  · rw [Option.some.inj h]
  · cases h

-- Nodes have no decidable equality, the texts of plain scalars have.
theorem members?_of_plain (text : String) (texts : List (String × String))
    (h : (Yaml.members? text).map (·.map fun m => (m.1, plainText? m.2)) =
      some (texts.map fun t => (t.1, some t.2))) :
    Yaml.members? text = some (texts.map fun t => (t.1, .scalar .plain none t.2)) := by
  obtain ⟨members, hText, hSame⟩ := Option.map_eq_some_iff.mp h
  rw [hText, Option.some.injEq]
  clear hText h
  induction members generalizing texts with
  | nil => cases texts <;> simp_all
  | cons m rest ih =>
    cases texts with
    | nil => cases hSame
    | cons t others =>
      obtain ⟨hFirst, hRest⟩ := List.cons.inj hSame
      obtain ⟨hKey, hPlain⟩ := Prod.mk.inj hFirst
      rw [List.map_cons, ← ih others hRest, ← hKey, ← eq_plain hPlain]

/-- The file alone is invalid; one override repairs it and another spoils it again. -/
theorem load_by_layers_repaired :
    (∃ members, FileLayer etc (some "/idle.yaml") members ∧ WellTyped members ∧
      load etc (some "/idle.yaml") ⟨none, none⟩ = .error (.agent (.config .pollInterval)) ∧
      load etc (some "/idle.yaml") ⟨some 3, none⟩ =
        .ok { standard with pollInterval := 3, exporterPort := 9104 } ∧
      load etc (some "/idle.yaml") ⟨some 3, some ""⟩ = .error (.agent (.config .prometheusUrl))) ∧
    etc.readText "/unbound.yaml" = .ok unbound ∧ Malformed unbound ∧
      load etc (some "/unbound.yaml") ⟨some 3, none⟩ = .error (.invalidConfig "/unbound.yaml") := by
  constructor
  · have hMembers : Yaml.members? idle = some [("poll_interval_secs", .scalar .plain none "0"),
        ("exporter_port", .scalar .plain none "0x2390")] :=
      members?_of_plain idle [("poll_interval_secs", "0"), ("exporter_port", "0x2390")]
        (by decide +kernel)
    have hRead : ofMembers? [("poll_interval_secs", .scalar .plain none "0"),
        ("exporter_port", .scalar .plain none "0x2390")] =
          some { standard with pollInterval := 0, exporterPort := 9104 } := by decide +kernel
    have hTyped := (ofMembers?_eq_some_iff.mp hRead).1
    have hFile : FileLayer etc (some "/idle.yaml") _ := .read (readText_of_lookup rfl)
      (.mapping (not_blank_of_isBlankText (by decide +kernel)) hMembers)
    have hLoad : ∀ o, Validated (load etc (some "/idle.yaml") o)
        (o.apply { standard with pollInterval := 0, exporterPort := 9104 }) := by
      intro o
      obtain ⟨c, hEffective, hValidated⟩ := (load_by_layers etc o).1 _ _ hFile hTyped
      rwa [← (hEffective _).mp (effective_apply hRead)] at hValidated
    refine ⟨_, hFile, hTyped, ?_, ?_, ?_⟩
    · exact ((hLoad _).error_iff _).mpr ⟨_, rfl, fault?_eq_some_iff.mp rfl⟩
    · exact ((hLoad _).ok_iff _).mpr ⟨rfl, fault?_eq_none_iff.mp rfl⟩
    · exact ((hLoad _).error_iff _).mpr ⟨_, rfl, fault?_eq_some_iff.mp rfl⟩
  · have hText : etc.readText "/unbound.yaml" = .ok unbound := readText_of_lookup rfl
    have hMembers : Yaml.members? unbound =
        some [("exporter_port", .scalar .plain none "65536")] :=
      members?_of_plain unbound [("exporter_port", "65536")] (by decide +kernel)
    have hMalformed : Malformed unbound := by
      refine .mistyped (.mapping (not_blank_of_isBlankText (by decide +kernel)) hMembers) List.mem_cons_self ?_
      intro s hKey v hDenotes
      obtain rfl : s = .exporterPort := Setting.key_injective hKey
      have hPort : (Yaml.Node.scalar .plain none "65536").word? = some (UInt16.toUInt64 v) :=
        Yaml.Node.word?_eq_some_iff.mpr hDenotes
      have hWord : (Yaml.Node.scalar .plain none "65536").word? = some 65536 := by decide
      have hRange := UInt16.toNat_lt v
      have hSame : UInt16.toNat v = 65536 :=
        congrArg UInt64.toNat (Option.some.inj (hPort.symm.trans hWord))
      omega
    exact ⟨hText, hMalformed, (load_by_layers etc _).2 _ _ hText hMalformed⟩

end Config

end GatewayTelemetry
