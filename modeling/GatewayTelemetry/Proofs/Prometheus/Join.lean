import GatewayTelemetry.Prometheus.Usage
import GatewayTelemetry.Proofs.Decimal.Order
import GatewayTelemetry.Proofs.Keyed
import Mathlib.Data.List.Induction
import Mathlib.Data.List.Pairwise
import Mathlib.Data.String.Basic
import Mathlib.Order.OrderDual

/-! # What is reported for an address

The usage reported for an address is made of its last total and its last usage series. Its network
usage is that of the first device of which no other one is ahead; being ahead is a linear order of
rates and device names, so the devices can be gone through one after the other.
-/

namespace GatewayTelemetry

theorem Reported.find?_entries {α β : Type} (m : Keyed α) (f : String × α → β) (address : String) :
    find? (m.entries.map fun e => ⟨e.1, f e⟩) address =
      (m.find? address).map fun a => f (address, a) := by
  simp only [find?, Keyed.find?, List.find?_map, Option.map_map, Function.comp_def]
  cases hFound : m.entries.find? fun e => e.1 == address with
  | none => rfl
  | some e =>
    have hKey : e.1 = address := by simpa using List.find?_some hFound
    rw [Option.map_some, Option.map_some, ← hKey]

namespace Reported

variable {α : Type} {reports reports' : List (Reported α)}

def Ascending (reports : List (Reported α)) : Prop := (reports.map (·.address)).Pairwise (· < ·)

def keyed (reports : List (Reported α)) (h : Ascending reports) : Keyed α :=
  ⟨reports.map fun r => (r.address, r.metric), by simpa [Ascending, List.pairwise_map] using h⟩

theorem find?_keyed (h : Ascending reports) : (keyed reports h).find? = find? reports := by
  funext address
  simp only [keyed, Keyed.find?, find?, List.find?_map, Option.map_map, Function.comp_def]

theorem find?_eq_some_iff (h : Ascending reports) {address : String} {metric : α} :
    find? reports address = some metric ↔ ⟨address, metric⟩ ∈ reports := by
  rw [← find?_keyed h, Keyed.find?_eq_some_iff, keyed, List.mem_map]
  constructor
  · rintro ⟨r, hr, hEntry⟩
    cases hEntry
    exact hr
  · exact fun hr => ⟨_, hr, rfl⟩

theorem ext_find? (h : Ascending reports) (h' : Ascending reports')
    (hFind : find? reports = find? reports') : reports = reports' := by
  have hKeyed : keyed reports h = keyed reports' h' := by
    refine Keyed.ext_find? fun address => ?_
    rw [find?_keyed, find?_keyed, hFind]
  have hInj : Function.Injective fun r : Reported α => (r.address, r.metric) := by
    rintro ⟨_, _⟩ ⟨_, _⟩ hSame
    cases hSame
    rfl
  exact List.map_injective_iff.mpr hInj (congrArg Keyed.entries hKeyed)

theorem mem_addresses_iff (reports : List (Reported α)) (address : String) :
    address ∈ reports.map (·.address) ↔ (find? reports address).isSome := by
  simp [find?, List.find?_isSome]

theorem ascending_entries {β : Type} (m : Keyed α) (f : String × α → β) :
    Ascending (m.entries.map fun e => ⟨e.1, f e⟩) :=
  List.pairwise_map.mpr (List.pairwise_map.mpr m.ordered)

end Reported

namespace Prometheus

theorem eq_of_nodup_filterMap {α β : Type} {f : α → Option β} {answers : List α}
    (h : (answers.filterMap f).Nodup) {x y : α} {b : β} (hx : x ∈ answers) (hy : y ∈ answers)
    (hb : f x = some b) (hb' : f y = some b) : x = y := by
  have hApart := List.pairwise_filterMap.mp h
  have : Std.Symm fun x y => ∀ b, f x = some b → ∀ b', f y = some b' → b ≠ b' :=
    ⟨fun _ _ hOther b hb b' hb' => (hOther b' hb' b hb).symm⟩
  by_contra hNe
  exact hApart.forall hx hy hNe b hb b hb' rfl

theorem find?_eq_some_iff_mem {α : Type} {p : α → Bool} {l : List α} {x : α}
    (hOnly : ∀ y ∈ l, ∀ z ∈ l, p y = true → p z = true → y = z) :
    l.find? p = some x ↔ x ∈ l ∧ p x = true := by
  constructor
  · exact fun hFound => ⟨List.mem_of_find?_eq_some hFound, List.find?_some hFound⟩
  · rintro ⟨hMem, hx⟩
    obtain ⟨y, hFound⟩ := Option.isSome_iff_exists.mp (List.find?_isSome.mpr ⟨x, hMem, hx⟩)
    rw [hFound, hOnly y (List.mem_of_find?_eq_some hFound) x hMem (List.find?_some hFound) hx]

def lastFor {α : Type} (labels : α → Labels) (answers : List α) (address : String) : Option α :=
  answers.reverse.find? fun x => addressOf (labels x) = some address

theorem lastFor_append {α : Type} (labels : α → Labels) (answers : List α) (x : α)
    (address : String) :
    lastFor labels (answers ++ [x]) address =
      if addressOf (labels x) = some address then some x else lastFor labels answers address := by
  simp only [lastFor, List.reverse_append, List.reverse_singleton, List.singleton_append,
    List.find?_cons]
  by_cases hSame : addressOf (labels x) = some address
  · simp [hSame]
  · simp [hSame]

/-- The last total and the last usage series of an address, if there is either. -/
def usageFor (totals : List InstantSample) (usages : List RangeSeries) (address : String) :
    Option Usage :=
  match lastFor InstantSample.labels totals address, lastFor RangeSeries.labels usages address with
  | none, none => none
  | total, series =>
    some ⟨(total.map fun s => totalOf s.value.2).getD 0,
      (series.map fun s => samplesOf s.values).getD []⟩

variable (address : String)

theorem find?_of_put {m m' : Joined} {labels : Labels} (put : String → Usage)
    (hNone : addressOf labels = none → m' = m)
    (hSome : ∀ other, addressOf labels = some other → m' = m.insert other (put other)) :
    m'.find? address =
      if addressOf labels = some address then some (put address) else m.find? address := by
  cases hAddress : addressOf labels with
  | none => simp [hNone hAddress]
  | some other =>
    rw [hSome other hAddress, Keyed.find?_insert]
    by_cases hSame : address = other
    · simp [hSame]
    · simp [hSame, Ne.symm hSame]

theorem find?_addTotal (m : Joined) (s : InstantSample) :
    (addTotal m s).find? address =
      if addressOf s.labels = some address then
        some ⟨totalOf s.value.2, (usageAt m address).samples⟩
      else m.find? address :=
  find?_of_put address (fun other => ⟨totalOf s.value.2, (usageAt m other).samples⟩)
    (fun hNone => by rw [addTotal, hNone]) (fun other hSome => by rw [addTotal, hSome])

theorem find?_addSeries (m : Joined) (s : RangeSeries) :
    (addSeries m s).find? address =
      if addressOf s.labels = some address then
        some ⟨(usageAt m address).total, samplesOf s.values⟩
      else m.find? address :=
  find?_of_put address (fun other => ⟨(usageAt m other).total, samplesOf s.values⟩)
    (fun hNone => by rw [addSeries, hNone]) (fun other hSome => by rw [addSeries, hSome])

theorem find?_totals (totals : List InstantSample) :
    (totals.foldl addTotal ∅).find? address =
      (lastFor InstantSample.labels totals address).map fun s => ⟨totalOf s.value.2, []⟩ := by
  induction totals using List.reverseRecOn with
  | nil => rfl
  | append_singleton past s ih =>
    -- All totals go in before the first series, so there are no samples yet to be kept.
    have hSamples : (usageAt (past.foldl addTotal ∅) address).samples = [] := by
      rw [usageAt, ih]
      cases lastFor InstantSample.labels past address <;> rfl
    rw [List.foldl_append, List.foldl_cons, List.foldl_nil, find?_addTotal, lastFor_append, hSamples,
      ih]
    split <;> rfl

theorem find?_usages (m : Joined) (usages : List RangeSeries) :
    (usages.foldl addSeries m).find? address =
      match lastFor RangeSeries.labels usages address with
      | some s => some ⟨(usageAt m address).total, samplesOf s.values⟩
      | none => m.find? address := by
  induction usages using List.reverseRecOn with
  | nil => rfl
  | append_singleton past s ih =>
    have hTotal : (usageAt (past.foldl addSeries m) address).total = (usageAt m address).total := by
      rw [usageAt, ih, usageAt]
      cases lastFor RangeSeries.labels past address <;> rfl
    rw [List.foldl_append, List.foldl_cons, List.foldl_nil, find?_addSeries, lastFor_append, hTotal,
      ih]
    split <;> rfl

theorem find?_joinUsages (totals : List InstantSample) (usages : List RangeSeries) :
    Reported.find? (joinUsages totals usages) address = usageFor totals usages address := by
  rw [joinUsages, Reported.find?_entries, find?_usages, find?_totals, usageAt, find?_totals,
    usageFor]
  cases lastFor InstantSample.labels totals address <;>
    cases lastFor RangeSeries.labels usages address <;> rfl

def deviceAt (s : RangeSeries) : Option String :=
  if addressOf s.labels = some address then deviceOf s.labels else none

def devicesAt (series : List RangeSeries) : List (String × RangeSeries) :=
  series.filterMap fun s => (deviceAt address s).map (·, s)

def isAhead (x y : String × RangeSeries) : Bool :=
  latestRate x.2 > latestRate y.2 || (latestRate x.2 == latestRate y.2 && x.1 < y.1)

/-- The first device of the address that no other one is ahead of. -/
def busiest? (series : List RangeSeries) : Option (String × RangeSeries) :=
  (devicesAt address series).find? fun x => (devicesAt address series).all fun y => !isAhead y x

/-- The busiest device of an address, with what was received and sent by it. -/
def networkFor (received sent : List RangeSeries) : Option NetworkUsage :=
  (busiest? address received).map fun x =>
    ⟨x.1, samplesOf x.2.values,
      ((seriesFor sent address x.1).map fun s => samplesOf s.values).getD []⟩

theorem latestRate_isFinite (s : RangeSeries) : (latestRate s).isFinite = true := by
  unfold latestRate
  cases hLast : s.values.getLast? with
  | none => decide +kernel
  | some p =>
    cases hValue : finiteValue? p.2 with
    | none => simpa [hValue] using (by decide +kernel : (0 : Float).isFinite = true)
    | some x => simpa [hValue] using (Option.filter_eq_some_iff.mp hValue).2

def standing (x : String × RangeSeries) : (ℤ ×ₗ ℤ ×ₗ ℤ) ×ₗ Stringᵒᵈ :=
  toLex (Binary.place (latestRate x.2), OrderDual.toDual x.1)

theorem isAhead_iff (x y : String × RangeSeries) :
    isAhead x y = true ↔ standing y < standing x := by
  have hLess := Binary.lt_iff_place (latestRate_isFinite y.2) (latestRate_isFinite x.2)
  have hEqual := Binary.beq_iff_place (latestRate_isFinite x.2) (latestRate_isFinite y.2)
  rw [isAhead, standing, standing, Prod.Lex.toLex_lt_toLex, OrderDual.toDual_lt_toDual,
    Bool.or_eq_true, Bool.and_eq_true, decide_eq_true_iff, decide_eq_true_iff, gt_iff_lt, hLess,
    hEqual, eq_comm]

/-- The leader of some devices: it is ahead of those before it, and none behind it is ahead. -/
def Leads (devices : List (String × RangeSeries)) (l : Leader) : Prop :=
  l.rate = latestRate l.series ∧ ∃ u v, devices = u ++ (l.device, l.series) :: v ∧
    (∀ y ∈ u, standing y < standing (l.device, l.series)) ∧
    ∀ y ∈ v, standing y ≤ standing (l.device, l.series)

theorem Leads.le {devices : List (String × RangeSeries)} {l : Leader} (h : Leads devices l) :
    ∀ y ∈ devices, standing y ≤ standing (l.device, l.series) := by
  obtain ⟨_, u, v, rfl, hBefore, hBehind⟩ := h
  intro y hy
  rcases List.mem_append.mp hy with hFirst | hRest
  · exact (hBefore y hFirst).le
  · rcases List.mem_cons.mp hRest with rfl | hLast
    · exact le_rfl
    · exact hBehind y hLast

theorem Leads.append {devices : List (String × RangeSeries)} {l : Leader} (h : Leads devices l)
    (device : String) (s : RangeSeries) :
    Leads (devices ++ [(device, s)])
      (if isAhead (device, s) (l.device, l.series) then ⟨device, latestRate s, s⟩ else l) := by
  split
  · rename_i hAhead
    refine ⟨rfl, devices, [], rfl, ?_, fun y hy => nomatch hy⟩
    exact fun y hy => (h.le y hy).trans_lt ((isAhead_iff _ _).mp hAhead)
  · rename_i hBehind
    obtain ⟨hRate, u, v, rfl, hFirst, hLast⟩ := h
    refine ⟨hRate, u, v ++ [(device, s)], by simp, hFirst, ?_⟩
    intro y hy
    rcases List.mem_append.mp hy with hOld | hNew
    · exact hLast y hOld
    · rw [List.mem_singleton.mp hNew]
      exact not_lt.mp fun hLess => hBehind ((isAhead_iff _ _).mpr hLess)

theorem leads_iff (device : String) (s : RangeSeries) {l : Leader}
    (hRate : l.rate = latestRate l.series) :
    leads device (latestRate s) (some l) = isAhead (device, s) (l.device, l.series) := by
  rw [leads, hRate, isAhead]

theorem find?_addDevice (m : Keyed Leader) (s : RangeSeries) :
    (addDevice m s).find? address =
      match deviceAt address s with
      | some device =>
        if leads device (latestRate s) (m.find? address) then some ⟨device, latestRate s, s⟩
        else m.find? address
      | none => m.find? address := by
  unfold addDevice deviceAt
  cases hAddress : addressOf s.labels with
  | none => simp
  | some other =>
    cases hDevice : deviceOf s.labels with
    | none => simp
    | some device =>
      by_cases hSame : other = address
      · subst hSame
        simp only [if_true]
        split
        · simp
        · rfl
      · rw [if_neg fun h => hSame (Option.some.inj h)]
        dsimp only
        split
        · rw [Keyed.find?_insert, if_neg (Ne.symm hSame)]
        · rfl

theorem find?_devices (series : List RangeSeries) :
    match (series.foldl addDevice ∅).find? address with
    | some l => Leads (devicesAt address series) l
    | none => devicesAt address series = [] := by
  induction series using List.reverseRecOn with
  | nil => rfl
  | append_singleton past s ih =>
    rw [List.foldl_append, List.foldl_cons, List.foldl_nil, find?_addDevice, devicesAt,
      List.filterMap_append, List.filterMap_cons, List.filterMap_nil, ← devicesAt]
    cases deviceAt address s with
    | none => simpa using ih
    | some device =>
      cases hFound : (past.foldl addDevice ∅).find? address with
      | none =>
        rw [hFound] at ih
        simp only at ih
        rw [ih]
        exact ⟨rfl, [], [], rfl, nofun, nofun⟩
      | some l =>
        rw [hFound] at ih
        have hLeads := ih.append device s
        rw [← leads_iff device s ih.1] at hLeads
        split at hLeads
        all_goals
          rename_i hAhead
          simp [hAhead, hLeads]

theorem Leads.busiest {series : List RangeSeries} {l : Leader}
    (h : Leads (devicesAt address series) l) :
    busiest? address series = some (l.device, l.series) := by
  have hLe := h.le
  obtain ⟨_, u, v, hSplit, hBefore, _⟩ := h
  have hMem : (l.device, l.series) ∈ devicesAt address series := by simp [hSplit]
  refine List.find?_eq_some_iff_append.mpr ⟨?_, u, v, hSplit, ?_⟩
  · rw [List.all_eq_true]
    intro y hy
    rw [Bool.not_eq_true', Bool.eq_false_iff, Ne, isAhead_iff, not_lt]
    exact hLe y hy
  · intro y hy
    have hAhead := (isAhead_iff _ _).mpr (hBefore y hy)
    simpa using ⟨_, _, hMem, hAhead⟩

theorem find?_leaders (series : List RangeSeries) :
    (series.foldl addDevice ∅).find? address =
      (busiest? address series).map fun x => ⟨x.1, latestRate x.2, x.2⟩ := by
  have hLeader := find?_devices address series
  cases hFound : (series.foldl addDevice ∅).find? address with
  | none =>
    rw [hFound] at hLeader
    simp only at hLeader
    rw [busiest?, hLeader]
    rfl
  | some l =>
    rw [hFound] at hLeader
    rw [Leads.busiest address hLeader, Option.map_some, ← hLeader.1]

theorem find?_joinNetwork (received sent : List RangeSeries) :
    Reported.find? (joinNetwork received sent) address = networkFor address received sent := by
  rw [joinNetwork, Reported.find?_entries, find?_leaders, Option.map_map, networkFor]
  rfl

end Prometheus

end GatewayTelemetry
