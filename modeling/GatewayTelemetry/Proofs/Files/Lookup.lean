import GatewayTelemetry.Files.Tree
import GatewayTelemetry.Proofs.Outcome

/-! # What lies on the way of a path

A path that leads somewhere passes through every path that it is joined from, so each of these leads
to a directory. What is read as a text is a file that holds its octets.
-/

namespace GatewayTelemetry

namespace Path

variable {base path : String}

theorem splitSlash_ne_nil (cs : List Char) : splitSlash cs ≠ [] := by
  cases cs with
  | nil => exact List.cons_ne_nil _ _
  | cons c rest =>
    rw [splitSlash]
    split
    · exact List.cons_ne_nil _ _
    · split <;> exact List.cons_ne_nil _ _

theorem splitSlash_append (front back : List Char) :
    splitSlash (front ++ '/' :: back) = splitSlash front ++ splitSlash back := by
  induction front with
  | nil => simp [splitSlash]
  | cons c front ih =>
    rw [List.cons_append, splitSlash, splitSlash, ih]
    by_cases hSlash : c = '/'
    · rw [if_pos hSlash, if_pos hSlash, List.cons_append]
    · rw [if_neg hSlash, if_neg hSlash]
      cases hFront : splitSlash front with
      | nil => exact absurd hFront (splitSlash_ne_nil front)
      | cons part parts => rfl

theorem components_ne_nil (path : String) : components path ≠ [] := by
  rw [components, ne_eq, List.map_eq_nil_iff]
  exact splitSlash_ne_nil _

theorem join_eq (hBase : base ≠ "") (hPath : isAbsolute path = false) :
    (∃ front, base.toList = front ++ ['/'] ∧ join base path = base ++ path) ∨
      join base path = base ++ ("/" ++ path) := by
  rw [join, if_neg (by simp [hPath, hBase])]
  by_cases hSlash : base.toList.getLast? = some '/'
  · obtain ⟨front, hFront⟩ := List.getLast?_eq_some_iff.mp hSlash
    exact .inl ⟨front, hFront, if_pos hSlash⟩
  · exact .inr ((if_neg hSlash).trans String.append_assoc)

theorem exists_join_eq_append (hBase : base ≠ "") (hPath : isAbsolute path = false) :
    ∃ behind, join base path = base ++ behind := by
  rcases join_eq hBase hPath with ⟨_, _, hJoin⟩ | hJoin
  · exact ⟨_, hJoin⟩
  · exact ⟨_, hJoin⟩

theorem components_join (hBase : base ≠ "") (hPath : isAbsolute path = false) :
    ∃ front, components (join base path) = front ++ components path ∧
      (components base = front ∨ components base = front ++ [.here]) := by
  rcases join_eq hBase hPath with ⟨front, hFront, hJoin⟩ | hJoin
  · refine ⟨(splitSlash front).map Component.ofChars, ?_, .inr ?_⟩
    · rw [components, hJoin, String.toList_append, hFront, List.append_assoc, List.singleton_append,
        splitSlash_append, List.map_append, components]
    · rw [components, hFront, splitSlash_append, List.map_append]
      rfl
  · refine ⟨components base, ?_, .inl rfl⟩
    have hText : (join base path).toList = base.toList ++ '/' :: path.toList := by
      rw [hJoin, String.toList_append, String.toList_append]
      rfl
    rw [components, hText, splitSlash_append, List.map_append, components, components]

theorem join_ne_empty (h : base ≠ "" ∨ path ≠ "") : join base path ≠ "" := by
  by_cases hBase : base = ""
  · rw [join, if_pos (by simp [hBase])]
    exact h.resolve_left (not_not_intro hBase)
  · by_cases hPath : isAbsolute path = true
    · rw [join, if_pos (by simp [hPath])]
      rintro rfl
      exact absurd hPath (by decide)
    · obtain ⟨behind, hJoin⟩ := exists_join_eq_append hBase (Bool.eq_false_iff.mpr hPath)
      simp [hJoin, hBase]

end Path

namespace FileTree

variable {tree here node : FileTree} {above : List FileTree} {path base text : String}

theorem walk_directory {front rest : List Path.Component} {step : Path.Component}
    (h : walk above here (front ++ step :: rest) = .ok node) :
    ∃ entries, walk above here front = .ok (.directory entries) ∧
      walk above here (front ++ [.here]) = .ok (.directory entries) := by
  induction front generalizing above here with
  | nil =>
    cases here with
    | file content => cases h
    | directory entries => exact ⟨entries, rfl, rfl⟩
  | cons first front ih =>
    cases here with
    | file content => cases h
    | directory entries =>
      cases first with
      | here => exact ih h
      | up =>
        cases above with
        | nil => exact ih h
        | cons parent more => exact ih h
      | child name =>
        obtain ⟨found, hFound, hRest⟩ := bind_eq_ok_iff.mp h
        obtain ⟨entries', hFront, hHere⟩ := ih hRest
        exact ⟨entries', bind_eq_ok_iff.mpr ⟨found, hFound, hFront⟩,
          bind_eq_ok_iff.mpr ⟨found, hFound, hHere⟩⟩

theorem lookup_eq_ok_iff :
    tree.lookup path = .ok node ↔
      path ≠ "" ∧ '\x00' ∉ path.toList ∧ path.utf8ByteSize ≤ pathLimit ∧
        tree.walk [] (Path.components path) = .ok node := by
  rw [lookup]
  by_cases hEmpty : path = ""
  · simp [hEmpty]
  · by_cases hNul : '\x00' ∈ path.toList
    · simp [hEmpty, hNul]
    · by_cases hLong : pathLimit < path.utf8ByteSize
      · simp [hEmpty, hNul, hLong, Nat.not_le.mpr hLong]
      · simp [hEmpty, hNul, hLong, Nat.not_lt.mp hLong]

theorem isDirectory_iff :
    tree.isDirectory path = true ↔ ∃ entries, tree.lookup path = .ok (.directory entries) := by
  rw [isDirectory]
  split
  · rename_i entries hFound
    exact ⟨fun _ => ⟨entries, hFound⟩, fun _ => rfl⟩
  · rename_i hOther
    exact ⟨nofun, fun ⟨entries, hFound⟩ => absurd hFound (hOther entries)⟩

theorem isFile_iff :
    tree.isFile path = true ↔ ∃ content, tree.lookup path = .ok (.file content) := by
  rw [isFile]
  split
  · rename_i content hFound
    exact ⟨fun _ => ⟨content, hFound⟩, fun _ => rfl⟩
  · rename_i hOther
    exact ⟨nofun, fun ⟨content, hFound⟩ => absurd hFound (hOther content)⟩

theorem isDirectory_of_lookup_join (hBase : base ≠ "") (hPath : Path.isAbsolute path = false)
    (h : tree.lookup (Path.join base path) = .ok node) : tree.isDirectory base = true := by
  obtain ⟨_, hNul, hLong, hWalk⟩ := lookup_eq_ok_iff.mp h
  obtain ⟨behind, hJoin⟩ := Path.exists_join_eq_append hBase hPath
  obtain ⟨front, hComponents, hFront⟩ := Path.components_join hBase hPath
  obtain ⟨step, rest, hRest⟩ := List.exists_cons_of_ne_nil (Path.components_ne_nil path)
  -- The second path has a component at least, and its first step needs a directory to stand in.
  rw [hComponents, hRest] at hWalk
  obtain ⟨entries, hThere, hHere⟩ := walk_directory hWalk
  refine isDirectory_iff.mpr ⟨entries, lookup_eq_ok_iff.mpr ⟨hBase, ?_, ?_, ?_⟩⟩
  · intro hMem
    exact hNul (by rw [hJoin, String.toList_append]; exact List.mem_append_left _ hMem)
  · rw [hJoin, String.utf8ByteSize_append] at hLong
    omega
  · rcases hFront with hFront | hFront
    · rw [hFront, hThere]
    · rw [hFront, hHere]

theorem fromUTF8?_eq_some_iff {content : ByteArray} :
    String.fromUTF8? content = some text ↔ content = text.toUTF8 := by
  rw [String.fromUTF8?]
  constructor
  · intro h
    split at h
    · cases h
      rfl
    · cases h
  · rintro rfl
    exact dif_pos text.isValidUTF8

theorem readText_eq_ok_iff :
    tree.readText path = .ok text ↔ tree.lookup path = .ok (.file text.toUTF8) := by
  simp only [readText, bind_eq_ok_iff]
  constructor
  · rintro ⟨found, hFound, h⟩
    cases found with
    | directory entries => cases h
    | file content =>
      dsimp only at h
      split at h
      · rename_i hText
        cases h
        rw [hFound, fromUTF8?_eq_some_iff.mp hText]
      · cases h
  · intro hFound
    refine ⟨_, hFound, ?_⟩
    simp only [fromUTF8?_eq_some_iff.mpr rfl]

theorem readText_eq_notFound_iff :
    tree.readText path = .error .notFound ↔ tree.lookup path = .error .notFound := by
  rw [readText]
  cases hFound : tree.lookup path with
  | error fault => simp [bind, Except.bind]
  | ok found =>
    refine ⟨fun h => ?_, nofun⟩
    cases found with
    | directory entries => cases h
    | file content =>
      simp only [bind, Except.bind] at h
      split at h <;> cases h

end FileTree

end GatewayTelemetry
