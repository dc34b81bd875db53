import GatewayTelemetry.Proofs.Schema.Meaning
import Mathlib.Data.List.Nodup

/-! # What a value gives for the columns of a record

A record is given by an object or by an array. Either way each declared column gets a cell: the
value given for it, or nothing. Reading a row against a closed layout fails unless every cell fits
its column, and then the row holds the cells that are not empty.
-/

namespace GatewayTelemetry

/-- The cells that a value gives for the columns of these names: an object by its keys, all of them
declared and none given twice; an array by position, with no more items than columns. -/
inductive Cells (names : List String) : Json → List (Option Json) → Prop
  | keyed {fields : List (String × Json)} (hDeclared : ∀ f ∈ fields, f.1 ∈ names)
      (hDistinct : (fields.map (·.1)).Nodup) :
      Cells names (.obj fields) (names.map (Json.obj fields).get?)
  | listed {items : List Json} (hLength : items.length ≤ names.length) :
      Cells names (.arr items)
        (items.map some ++ List.replicate (names.length - items.length) none)

namespace Meaning

variable {α : Type}

inductive required (value : Meaning α) : Option Json → α → Prop
  | given {j : Json} {a : α} (h : value j a) : required value (some j) a

inductive optional (value : Meaning α) (default : α) : Option Json → α → Prop
  | absent : optional value default none default
  | given {j : Json} {a : α} (h : value j a) : optional value default (some j) a

end Meaning

def Column.Fits (c : Column) : Option Json → Prop
  | some j => c.check j = .ok ()
  | none => c.required = false

namespace Layout

def rowOf : List Column → List (Option Json) → Row
  | c :: columns, some j :: cells => (c.name, j) :: rowOf columns cells
  | _ :: columns, none :: cells => rowOf columns cells
  | _, _ => []

variable {l : Layout}

theorem column?_eq_some_iff (hNames : l.names.Nodup) {name : String} {c : Column} :
    l.column? name = some c ↔ c ∈ l.columns ∧ c.name = name := by
  constructor
  · intro h
    exact ⟨List.mem_of_find?_eq_some h, by simpa using List.find?_some h⟩
  · rintro ⟨hMem, rfl⟩
    cases hFound : l.column? c.name with
    | none => simpa using List.find?_eq_none.mp hFound c hMem
    | some other =>
      have hName : other.name = c.name := by simpa using List.find?_some hFound
      rw [List.inj_on_of_nodup_map hNames (List.mem_of_find?_eq_some hFound) hMem hName]

theorem visit_eq_ok_iff (hClosed : l.closed = true) (fields : List (String × Json))
    (seen : List String) :
    l.visit seen fields = .ok () ↔
      (∀ f ∈ fields, f.1 ∉ seen ∧ ∃ c, l.column? f.1 = some c ∧ c.check f.2 = .ok ()) ∧
        (fields.map (·.1)).Nodup := by
  -- The keys seen grow from member to member, so the statement is about any of them.
  induction fields generalizing seen with
  | nil => simp [visit]
  | cons f rest ih =>
    obtain ⟨k, j⟩ := f
    rw [visit]
    cases hColumn : l.column? k with
    | none => simp [hClosed, hColumn]
    | some c =>
      by_cases hSeen : k ∈ seen
      · simp [hSeen]
      · simp only [List.contains_eq_mem, hSeen, decide_false, Bool.false_eq_true, if_false,
          bind_eq_ok_iff, ih (k :: seen)]
        simp only [List.forall_mem_cons, List.map_cons, List.nodup_cons, hColumn]
        grind

theorem gather_eq_ok_iff (fields : List (String × Json)) (columns : List Column) (r : Row) :
    gather fields columns = .ok r ↔
      (∀ c ∈ columns, c.required = true → ((Json.obj fields).get? c.name).isSome) ∧
        rowOf columns (columns.map fun c => (Json.obj fields).get? c.name) = r := by
  induction columns generalizing r with
  | nil => simp [gather, rowOf]
  | cons c rest ih =>
    rw [gather]
    cases hFound : fields.find? fun f => f.1 == c.name with
    | none =>
      have hCell : (Json.obj fields).get? c.name = none := by simp [Json.get?, hFound]
      cases hRequired : c.required with
      | true => simp [hRequired, hCell]
      | false => simp [hRequired, hCell, ih, rowOf]
    | some f =>
      have hCell : (Json.obj fields).get? c.name = some f.2 := by simp [Json.get?, hFound]
      simp only [bind_eq_ok_iff, ih, pure, Except.pure, Except.ok.injEq, List.forall_mem_cons,
        List.map_cons, hCell, rowOf, Option.isSome_some, implies_true, true_and]
      constructor
      · rintro ⟨row, ⟨hRest, rfl⟩, rfl⟩
        exact ⟨hRest, rfl⟩
      · rintro ⟨hRest, rfl⟩
        exact ⟨_, ⟨hRest, rfl⟩, rfl⟩

theorem get?_eq_some_iff {fields : List (String × Json)} (hDistinct : (fields.map (·.1)).Nodup)
    {k : String} {j : Json} : (Json.obj fields).get? k = some j ↔ (k, j) ∈ fields := by
  rw [Json.get?, Option.map_eq_some_iff]
  constructor
  · rintro ⟨f, hFound, rfl⟩
    have hKey : f.1 = k := by simpa using List.find?_some hFound
    exact hKey ▸ List.mem_of_find?_eq_some hFound
  · intro hMem
    cases hFound : fields.find? fun f => f.1 == k with
    | none => simpa using List.find?_eq_none.mp hFound (k, j) hMem
    | some f =>
      have hKey : f.1 = k := by simpa using List.find?_some hFound
      have hSame := List.inj_on_of_nodup_map hDistinct (List.mem_of_find?_eq_some hFound) hMem hKey
      exact ⟨f, rfl, congrArg Prod.snd hSame⟩

theorem keyedRow_eq_ok_iff (hClosed : l.closed = true) (hNames : l.names.Nodup)
    (fields : List (String × Json)) (r : Row) :
    l.keyedRow fields = .ok r ↔
      ((∀ f ∈ fields, f.1 ∈ l.names) ∧ (fields.map (·.1)).Nodup) ∧
        (∀ c ∈ l.columns, c.Fits ((Json.obj fields).get? c.name)) ∧
          rowOf l.columns (l.columns.map fun c => (Json.obj fields).get? c.name) = r := by
  simp only [keyedRow, bind_eq_ok_iff, gather_eq_ok_iff, visit_eq_ok_iff hClosed,
    column?_eq_some_iff hNames]
  constructor
  · rintro ⟨_, ⟨hVisited, hDistinct⟩, hRequired, rfl⟩
    refine ⟨⟨?_, hDistinct⟩, ?_, rfl⟩
    · intro f hf
      obtain ⟨_, c, ⟨hColumn, hName⟩, _⟩ := hVisited f hf
      exact List.mem_map.mpr ⟨c, hColumn, hName⟩
    · intro c hc
      cases hCell : (Json.obj fields).get? c.name with
      | none =>
        have hMissing := hRequired c hc
        rw [hCell] at hMissing
        exact Bool.eq_false_iff.mpr fun h => nomatch hMissing h
      | some j =>
        obtain ⟨_, other, ⟨hColumn, hName⟩, hCheck⟩ :=
          hVisited _ ((get?_eq_some_iff hDistinct).mp hCell)
        rwa [List.inj_on_of_nodup_map hNames hColumn hc hName] at hCheck
  · rintro ⟨⟨hDeclared, hDistinct⟩, hFits, rfl⟩
    refine ⟨(), ⟨?_, hDistinct⟩, ?_, rfl⟩
    · intro f hf
      obtain ⟨c, hColumn, hName⟩ := List.mem_map.mp (hDeclared f hf)
      have hCell : (Json.obj fields).get? c.name = some f.2 :=
        (get?_eq_some_iff hDistinct).mpr (hName ▸ hf)
      have hFit := hFits c hColumn
      rw [hCell] at hFit
      exact ⟨List.not_mem_nil, c, ⟨hColumn, hName⟩, hFit⟩
    · intro c hc hRequired
      have hFit := hFits c hc
      cases hCell : (Json.obj fields).get? c.name with
      | none =>
        rw [hCell] at hFit
        exact nomatch hRequired.symm.trans hFit
      | some j => rfl

theorem zipRow_eq_ok_iff (index total : Nat) (columns : List Column) (items : List Json) (r : Row) :
    l.zipRow index total columns items = .ok r ↔
      items.length ≤ columns.length ∧
        List.Forall₂ Column.Fits columns
          (items.map some ++ List.replicate (columns.length - items.length) none) ∧
          rowOf columns
            (items.map some ++ List.replicate (columns.length - items.length) none) = r := by
  -- On columns and items together; the position is only there for faults.
  induction columns generalizing index items r with
  | nil =>
    cases items with
    | nil => simp [zipRow, rowOf]
    | cons j rest => simp [zipRow]
  | cons c rest ih =>
    cases items with
    | nil =>
      rw [zipRow]
      cases hRequired : c.required with
      | true => simp [Column.Fits, hRequired, List.replicate_succ]
      | false => simp [Column.Fits, hRequired, List.replicate_succ, rowOf, ih]
    | cons j js =>
      simp only [zipRow, bind_eq_ok_iff, ih, pure, Except.pure, Except.ok.injEq, List.map_cons,
        List.cons_append, List.length_cons, Nat.add_le_add_iff_right, Nat.add_sub_add_right,
        List.forall₂_cons, Column.Fits, rowOf]
      constructor
      · rintro ⟨_, hCheck, row, ⟨hLength, hFits, rfl⟩, rfl⟩
        exact ⟨hLength, ⟨hCheck, hFits⟩, rfl⟩
      · rintro ⟨hLength, ⟨hCheck, hFits⟩, rfl⟩
        exact ⟨(), hCheck, _, ⟨hLength, hFits, rfl⟩, rfl⟩

theorem row_eq_ok_iff (hClosed : l.closed = true) (hNames : l.names.Nodup) (j : Json) (r : Row) :
    l.row j = .ok r ↔
      ∃ cells, Cells l.names j cells ∧ List.Forall₂ Column.Fits l.columns cells ∧
        rowOf l.columns cells = r := by
  have hLength : l.names.length = l.columns.length := List.length_map _
  have hCells : ∀ fields : List (String × Json), l.names.map (Json.obj fields).get? =
      l.columns.map fun c => (Json.obj fields).get? c.name := fun fields => List.map_map
  constructor
  · intro h
    cases j with
    | obj fields =>
      obtain ⟨⟨hDeclared, hDistinct⟩, hFits, hRow⟩ :=
        (keyedRow_eq_ok_iff hClosed hNames fields r).mp h
      refine ⟨_, .keyed hDeclared hDistinct, ?_, ?_⟩
      · rw [hCells, List.forall₂_map_right_iff, List.forall₂_same]
        exact hFits
      · rw [hCells]
        exact hRow
    | arr items =>
      obtain ⟨hShort, hFits, hRow⟩ := (zipRow_eq_ok_iff 0 _ _ items r).mp h
      rw [← hLength] at hShort hFits hRow
      exact ⟨_, .listed hShort, hFits, hRow⟩
    | null | bool | num | str => cases h
  · rintro ⟨cells, hGiven, hFits, hRow⟩
    cases hGiven with
    | @keyed fields hDeclared hDistinct =>
      rw [hCells] at hFits hRow
      rw [List.forall₂_map_right_iff, List.forall₂_same] at hFits
      exact (keyedRow_eq_ok_iff hClosed hNames fields r).mpr ⟨⟨hDeclared, hDistinct⟩, hFits, hRow⟩
    | @listed items hShort =>
      rw [hLength] at hShort hFits hRow
      exact (zipRow_eq_ok_iff 0 _ _ items r).mpr ⟨hShort, hFits, hRow⟩

theorem read_eq_ok_iff {α : Type} {ofRow : Row → Except Fault α} (hClosed : l.closed = true)
    (hNames : l.names.Nodup) {j : Json} {a : α} :
    (l.row j >>= ofRow) = .ok a ↔
      ∃ cells, Cells l.names j cells ∧ List.Forall₂ Column.Fits l.columns cells ∧
        ofRow (rowOf l.columns cells) = .ok a := by
  simp only [bind_eq_ok_iff, row_eq_ok_iff hClosed hNames]
  constructor
  · rintro ⟨_, ⟨cells, hCells, hFits, rfl⟩, hRead⟩
    exact ⟨cells, hCells, hFits, hRead⟩
  · rintro ⟨cells, hCells, hFits, hRead⟩
    exact ⟨_, ⟨cells, hCells, hFits, rfl⟩, hRead⟩

theorem find?_rowOf_of_not_mem {name : String} {columns : List Column} {cells : List (Option Json)}
    (h : name ∉ columns.map (·.name)) :
    ((rowOf columns cells).find? fun f => f.1 == name) = none := by
  fun_induction rowOf columns cells with
  | case1 c columns j cells ih =>
    rw [List.map_cons, List.mem_cons, not_or] at h
    rw [List.find?_cons_of_neg (by simpa using Ne.symm h.1), ih h.2]
  | case2 c columns cells ih => exact ih (List.not_mem_of_not_mem_cons h)
  | case3 => rfl

theorem find?_rowOf_of_ne {c : Column} {columns : List Column} {cell : Option Json}
    {cells : List (Option Json)} {name : String} (h : c.name ≠ name) :
    ((rowOf (c :: columns) (cell :: cells)).find? fun f => f.1 == name) =
      (rowOf columns cells).find? fun f => f.1 == name := by
  cases cell with
  | none => rfl
  | some j => exact List.find?_cons_of_neg (by simpa using h)

theorem find?_rowOf_self {c : Column} {columns : List Column} {cell : Option Json}
    {cells : List (Option Json)} {name : String} (hName : c.name = name)
    (h : name ∉ columns.map (·.name)) :
    ((rowOf (c :: columns) (cell :: cells)).find? fun f => f.1 == name) =
      cell.map (name, ·) := by
  subst hName
  cases cell with
  | none => exact (find?_rowOf_of_not_mem h : ((rowOf columns cells).find? _) = none)
  | some j => exact List.find?_cons_of_pos (by simp)

theorem find?_rowOf_map (cell : String → Option Json) {name : String} {columns : List Column}
    (h : name ∈ columns.map (·.name)) :
    ((rowOf columns (columns.map fun c => cell c.name)).find? fun f => f.1 == name) =
      (cell name).map (name, ·) := by
  induction columns with
  | nil => exact absurd h List.not_mem_nil
  | cons c columns ih =>
    by_cases hLater : name ∈ columns.map (·.name)
    · cases hCell : cell c.name with
      | none => simpa [rowOf, hCell] using ih hLater
      | some j =>
        by_cases hName : c.name = name
        · subst hName
          simp [rowOf, hCell]
        · simpa [rowOf, hCell, hName] using ih hLater
    · obtain rfl : name = c.name := by
        rcases List.mem_cons.mp h with h | h
        · exact h
        · exact absurd h hLater
      exact find?_rowOf_self rfl hLater

theorem get_rowOf_of_ne {α : Type} {d : Decoder α} {c : Column} {columns : List Column}
    {cell : Option Json} {cells : List (Option Json)} {name : String} (h : c.name ≠ name) :
    Row.get (rowOf (c :: columns) (cell :: cells)) name d = Row.get (rowOf columns cells) name d := by
  rw [Row.get, find?_rowOf_of_ne h, Row.get]

theorem getD_rowOf_of_ne {α : Type} {d : Decoder α} {c : Column} {columns : List Column}
    {cell : Option Json} {cells : List (Option Json)} {name : String} {default : α}
    (h : c.name ≠ name) :
    Row.getD (rowOf (c :: columns) (cell :: cells)) name d default =
      Row.getD (rowOf columns cells) name d default := by
  rw [Row.getD, find?_rowOf_of_ne h, Row.getD]

end Layout

namespace Decoder.Reads

open Layout (rowOf)

variable {α : Type} {d : Decoder α} {value : Meaning α} {name : String}
  {columns : List Column} {cell : Option Json} {cells : List (Option Json)} {a : α}

theorem get (h : d.Reads value) (hName : name ∉ columns.map (·.name)) :
    Row.get (rowOf (.must name d :: columns) (cell :: cells)) name d = .ok a ↔
      Meaning.required value cell a := by
  have hCell : ((rowOf (.must name d :: columns) (cell :: cells)).find? fun f => f.1 == name) =
      cell.map (name, ·) := Layout.find?_rowOf_self rfl hName
  unfold Row.get
  rw [hCell]
  cases cell with
  | none => exact ⟨nofun, nofun⟩
  | some j => exact (h j a).trans ⟨.given, fun ⟨hDenotes⟩ => hDenotes⟩

theorem getD_of_cell (h : d.Reads value) {r : Row}
    (hCell : (r.find? fun f => f.1 == name) = cell.map (name, ·)) (default : α) :
    Row.getD r name d default = .ok a ↔ Meaning.optional value default cell a := by
  unfold Row.getD
  rw [hCell]
  cases cell with
  | none => exact ⟨fun h => by cases h; exact .absent, fun h => by cases h; rfl⟩
  | some j =>
    exact (h j a).trans ⟨.given, fun hGiven => by cases hGiven; assumption⟩

theorem getD (h : d.Reads value) (hName : name ∉ columns.map (·.name)) (default : α) :
    Row.getD (rowOf (.may name d :: columns) (cell :: cells)) name d default = .ok a ↔
      Meaning.optional value default cell a :=
  h.getD_of_cell (Layout.find?_rowOf_self rfl hName) default

theorem fits_must (h : d.Reads value) (hCell : Meaning.required value cell a) :
    (Column.must name d).Fits cell := by
  obtain ⟨hDenotes⟩ := hCell
  exact map_eq_ok_iff.mpr ⟨a, (h _ a).mpr hDenotes, rfl⟩

theorem fits_may (h : d.Reads value) {default : α}
    (hCell : Meaning.optional value default cell a) : (Column.may name d).Fits cell := by
  cases hCell with
  | absent => rfl
  | given hDenotes => exact map_eq_ok_iff.mpr ⟨a, (h _ a).mpr hDenotes, rfl⟩

end Decoder.Reads

end GatewayTelemetry
