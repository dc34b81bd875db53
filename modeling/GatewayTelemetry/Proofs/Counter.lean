import GatewayTelemetry.Counter
import GatewayTelemetry.Proofs.Decimal.Numeral
import GatewayTelemetry.Proofs.Files.Lookup

/-! # What a counter file holds

A counter is read off a text just when the text spells a number within the range of words, with
blanks around it. Every other text is a failed query that names the trouble, so no number is cut
down to a word. A device whose counters are found is found itself, and its counters are not missing.
-/

namespace GatewayTelemetry.Counter

open Decimal (isDigit digitValue natOfDigits dropPlus)

/-- Digits in a row, the highest first, and the number they make, with a plus in front or none. -/
inductive Spells : List Char → ℕ → Prop
  | bare {ds : List Char} (hSome : ds ≠ []) (hDigits : ∀ c ∈ ds, isDigit c = true) :
      Spells ds (Nat.ofDigits 10 (ds.map digitValue).reverse)
  | plus {ds : List Char} (hSome : ds ≠ []) (hDigits : ∀ c ∈ ds, isDigit c = true) :
      Spells ('+' :: ds) (Nat.ofDigits 10 (ds.map digitValue).reverse)

/-- The trouble with a text that spells no word: there is nothing, or the digits at its start are
too many, or else something stands where a digit should. -/
inductive Refused : List Char → WordFault → Prop
  | empty : Refused [] .empty
  | tooLarge {cs : List Char}
      (hLarge : UInt64.size ≤ natOfDigits ((dropPlus cs).takeWhile isDigit)) : Refused cs .tooLarge
  | invalidDigit {cs : List Char} (hSome : cs ≠ [])
      (hRange : natOfDigits ((dropPlus cs).takeWhile isDigit) < UInt64.size)
      (hOther : dropPlus cs = [] ∨ ∃ c ∈ dropPlus cs, isDigit c = false) : Refused cs .invalidDigit

variable {cs : List Char} {n : ℕ} {w : UInt64} {fault : WordFault}

theorem spells_iff :
    Spells cs n ↔
      dropPlus cs ≠ [] ∧ (∀ c ∈ dropPlus cs, isDigit c = true) ∧ natOfDigits (dropPlus cs) = n := by
  rw [Decimal.natOfDigits_eq_ofDigits, Decimal.dropPlus.eq_def]
  split
  · constructor
    · rintro (⟨_, hDigits⟩ | ⟨hSome, hDigits⟩)
      · exact absurd (hDigits '+' List.mem_cons_self) (by decide)
      · exact ⟨hSome, hDigits, rfl⟩
    · rintro ⟨hSome, hDigits, rfl⟩
      exact .plus hSome hDigits
  · rename_i hPlus
    constructor
    · rintro (⟨hSome, hDigits⟩ | _)
      · exact ⟨hSome, hDigits, rfl⟩
      · exact absurd rfl (hPlus _)
    · rintro ⟨hSome, hDigits, rfl⟩
      exact .bare hSome hDigits

theorem le_foldl_digits (n : ℕ) (ds : List Char) :
    n ≤ ds.foldl (fun n c => n * 10 + digitValue c) n := by
  induction ds generalizing n with
  | nil => exact Nat.le_refl n
  | cons d ds ih => exact Nat.le_trans (by omega) (ih (n * 10 + digitValue d))

theorem readDigits_eq (h : n < UInt64.size) (cs : List Char) :
    readDigits n cs =
      if UInt64.size ≤ (cs.takeWhile isDigit).foldl (fun n c => n * 10 + digitValue c) n then
        .error .tooLarge
      else if cs.all isDigit then .ok (cs.foldl (fun n c => n * 10 + digitValue c) n)
      else .error .invalidDigit := by
  induction cs generalizing n with
  | nil => exact (if_neg (Nat.not_le.mpr h)).symm
  | cons c rest ih =>
    rw [readDigits]
    cases hDigit : isDigit c with
    | false => simp [hDigit, h]
    | true =>
      by_cases hNext : n * 10 + digitValue c < UInt64.size
      · simp [hDigit, hNext, ih hNext]
      · -- The digits that follow do not make the number smaller again.
        have hLarge := Nat.le_trans (Nat.not_lt.mp hNext)
          (le_foldl_digits (n * 10 + digitValue c) (rest.takeWhile isDigit))
        simp [hDigit, hNext, hLarge]

theorem readDigits_zero (cs : List Char) :
    readDigits 0 cs =
      if UInt64.size ≤ natOfDigits (cs.takeWhile isDigit) then .error .tooLarge
      else if cs.all isDigit then .ok (natOfDigits cs) else .error .invalidDigit :=
  readDigits_eq (by decide) cs

theorem readDigits_zero_eq_ok_iff :
    readDigits 0 cs = .ok n ↔
      (∀ c ∈ cs, isDigit c = true) ∧ natOfDigits cs = n ∧ n < UInt64.size := by
  rw [readDigits_zero, ← List.all_eq_true]
  cases hDigits : cs.all isDigit with
  | false => split <;> simp
  | true =>
    rw [List.takeWhile_eq_self_iff.mpr (List.all_eq_true.mp hDigits)]
    split
    · rename_i hLarge
      refine ⟨nofun, ?_⟩
      rintro ⟨_, rfl, hRange⟩
      exact absurd hLarge (Nat.not_le.mpr hRange)
    · rename_i hRange
      refine ⟨?_, ?_⟩
      · rintro ⟨⟩
        exact ⟨rfl, rfl, Nat.not_le.mp hRange⟩
      · rintro ⟨_, rfl, _⟩
        rfl

theorem refused_of_readDigits (hSome : cs ≠ [])
    (h : readDigits 0 (dropPlus cs) = .error fault) : Refused cs fault := by
  rw [readDigits_zero] at h
  split at h
  · rename_i hLarge
    cases h
    exact .tooLarge hLarge
  · rename_i hRange
    split at h
    · cases h
    · rename_i hDigits
      cases h
      refine .invalidDigit hSome (Nat.not_le.mp hRange) (.inr ?_)
      simpa using hDigits

theorem toUInt64_eq_iff (h : n < UInt64.size) : n.toUInt64 = w ↔ n = w.toNat := by
  rw [Nat.toUInt64_eq]
  constructor
  · rintro rfl
    exact (UInt64.toNat_ofNat_of_lt' h).symm
  · rintro rfl
    exact UInt64.ofNat_toNat

theorem readWord_eq_ok_iff : readWord cs = .ok w ↔ Spells cs w.toNat := by
  rw [spells_iff, readWord]
  by_cases hNone : dropPlus cs = []
  · refine ⟨fun h => ?_, fun h => absurd hNone h.1⟩
    split_ifs at h
    simp_all
  · have hSome : cs ≠ [] := fun h => hNone (by rw [h]; rfl)
    rw [if_neg (by simpa using hSome), if_neg (by simpa using hNone), map_eq_ok_iff]
    simp only [readDigits_zero_eq_ok_iff]
    constructor
    · rintro ⟨n, ⟨hDigits, hValue, hRange⟩, hWord⟩
      exact ⟨hNone, hDigits, hValue.trans ((toUInt64_eq_iff hRange).mp hWord)⟩
    · rintro ⟨_, hDigits, hValue⟩
      exact ⟨_, ⟨hDigits, hValue, w.toNat_lt_size⟩, (toUInt64_eq_iff w.toNat_lt_size).mpr rfl⟩

theorem readWord_of_large (h : Spells cs n) (hLarge : UInt64.size ≤ n) :
    readWord cs = .error .tooLarge := by
  obtain ⟨hSome, hDigits, rfl⟩ := spells_iff.mp h
  have hFilled : cs ≠ [] := fun h => hSome (by rw [h]; rfl)
  have hAll : (dropPlus cs).takeWhile isDigit = dropPlus cs :=
    List.takeWhile_eq_self_iff.mpr hDigits
  rw [readWord, if_neg (by simpa using hFilled), if_neg (by simpa using hSome), readDigits_zero,
    hAll, if_pos hLarge]
  rfl

theorem refused_of_readWord (h : readWord cs = .error fault) : Refused cs fault := by
  rw [readWord] at h
  split at h
  · rename_i hNone
    cases h
    rw [List.isEmpty_iff.mp hNone]
    exact .empty
  · rename_i hSome
    have hFilled : cs ≠ [] := by simpa using hSome
    split at h
    · rename_i hNone
      cases h
      have hBody : dropPlus cs = [] := List.isEmpty_iff.mp hNone
      exact .invalidDigit hFilled (by rw [hBody]; decide) (.inl hBody)
    · cases hRead : readDigits 0 (dropPlus cs) with
      | ok n =>
        rw [hRead] at h
        cases h
      | error other =>
        rw [hRead] at h
        cases h
        exact refused_of_readDigits hFilled hRead

inductive Holds (text : String) (n : ℕ) : Prop
  | surrounded {lead body trail : List Char} (hText : text.toList = lead ++ body ++ trail)
      (hLead : ∀ c ∈ lead, Text.isBlank c = true) (hTrail : ∀ c ∈ trail, Text.isBlank c = true)
      (hBody : Spells body n) : Holds text n

variable {text path : String}

theorem not_isBlank_of_isDigit {c : Char} (h : isDigit c = true) : Text.isBlank c = false := by
  simp only [isDigit, Bool.and_eq_true, decide_eq_true_eq, Char.le_def,
    UInt32.le_iff_toNat_le] at h
  obtain ⟨hFirst, hLast⟩ : 0x30 ≤ c.toNat ∧ c.toNat ≤ 0x39 := h
  simp only [Text.isBlank, Bool.or_eq_false_iff, Bool.and_eq_false_iff, decide_eq_false_iff_not,
    beq_eq_false_iff_ne]
  omega

theorem Spells.not_blank (h : Spells cs n) : ∀ c ∈ cs, Text.isBlank c = false := by
  rcases h with ⟨_, hDigits⟩ | ⟨_, hDigits⟩
  · exact fun c hc => not_isBlank_of_isDigit (hDigits c hc)
  · refine List.forall_mem_cons.mpr ⟨by decide, ?_⟩
    exact fun c hc => not_isBlank_of_isDigit (hDigits c hc)

theorem holds_iff : Holds text n ↔ Spells (Text.trim text.toList) n := by
  constructor
  · rintro ⟨hText, hLead, hTrail, hBody⟩
    rwa [hText, Text.trim_surrounded hLead hTrail hBody.not_blank]
  · intro hBody
    obtain ⟨lead, trail, hLead, hTrail, hText⟩ := Text.exists_surrounded text.toList
    exact .surrounded hText hLead hTrail hBody

def refusal (path text : String) (fault : WordFault) : SourceError :=
  .query (path ++ " holds " ++ Text.quoted (Text.trimmed text) ++ ", not a counter: "
    ++ fault.message)

theorem ofText_eq_ok_iff : ofText path text = .ok w ↔ Holds text w.toNat := by
  rw [holds_iff, ← readWord_eq_ok_iff, ofText]
  cases readWord (Text.trim text.toList) <;> simp

theorem ofText_of_large (h : Holds text n) (hLarge : UInt64.size ≤ n) :
    ofText path text = .error (refusal path text .tooLarge) := by
  rw [ofText, readWord_of_large (holds_iff.mp h) hLarge]
  rfl

theorem exists_refused (h : ∀ w : UInt64, ¬ Holds text w.toNat) :
    ∃ fault, Refused (Text.trim text.toList) fault ∧
      ofText path text = .error (refusal path text fault) := by
  cases hRead : readWord (Text.trim text.toList) with
  | ok w => exact absurd (holds_iff.mpr (readWord_eq_ok_iff.mp hRead)) (h w)
  | error fault =>
    refine ⟨fault, refused_of_readWord hRead, ?_⟩
    rw [ofText, hRead]
    rfl

variable {tree : FileTree} {root device : String} {direction : Direction}

theorem devicePath_ne_empty (root device : String) : devicePath root device ≠ "" :=
  Path.join_ne_empty (.inl (Path.join_ne_empty (.inr (by decide))))

theorem not_isAbsolute_fileName (direction : Direction) :
    Path.isAbsolute direction.fileName = false := by
  cases direction <;> decide

theorem devicePresent_of_lookup {node : FileTree}
    (h : tree.lookup (filePath root device direction) = .ok node) :
    devicePresent tree root device = true := by
  have hDevice := devicePath_ne_empty root device
  have hStatistics := FileTree.isDirectory_of_lookup_join
    (Path.join_ne_empty (.inl hDevice)) (not_isAbsolute_fileName direction) h
  obtain ⟨entries, hFound⟩ := FileTree.isDirectory_iff.mp hStatistics
  exact FileTree.isDirectory_of_lookup_join hDevice (by decide) hFound

theorem countersPresent_iff :
    countersPresent tree root device = true ↔
      ∀ direction, tree.isFile (filePath root device direction) = true := by
  rw [countersPresent, Bool.and_eq_true]
  constructor
  · rintro ⟨hReceived, hSent⟩ (_ | _)
    · exact hReceived
    · exact hSent
  · exact fun h => ⟨h .received, h .sent⟩

theorem read_of_lookup
    (h : tree.lookup (filePath root device direction) = .ok (.file text.toUTF8)) :
    read tree root device direction = ofText (filePath root device direction) text := by
  rw [read, FileTree.readText_eq_ok_iff.mpr h]

theorem ofText_ne_missing {missing : String} : ofText path text ≠ .error (.missing missing) := by
  rw [ofText]
  intro h
  split at h <;> cases h

theorem read_eq_missing_iff {missing : String} :
    read tree root device direction = .error (.missing missing) ↔
      missing = filePath root device direction ∧
        tree.lookup (filePath root device direction) = .error .notFound := by
  rw [read, ← FileTree.readText_eq_notFound_iff]
  cases hText : tree.readText (filePath root device direction) with
  | ok text => simp [ofText_ne_missing]
  | error fault => cases fault <;> simp [eq_comm]

/-- The probes and the reads agree on what is there, and a counter that is read is the number its
file holds. -/
theorem probes_and_reads_agree (tree : FileTree) (root device : String) :
    (countersPresent tree root device = true →
      devicePresent tree root device = true ∧
        ∀ direction missing, read tree root device direction ≠ .error (.missing missing)) ∧
    ∀ direction text, tree.lookup (filePath root device direction) = .ok (.file text.toUTF8) →
      (∀ w : UInt64, read tree root device direction = .ok w ↔ Holds text w.toNat) ∧
      (∀ n, Holds text n → UInt64.size ≤ n → read tree root device direction =
        .error (refusal (filePath root device direction) text .tooLarge)) ∧
      ((¬ ∃ n < UInt64.size, Holds text n) → ∃ fault, Refused (Text.trim text.toList) fault ∧
        read tree root device direction =
          .error (refusal (filePath root device direction) text fault)) := by
  constructor
  · intro hPresent
    have hFiles := countersPresent_iff.mp hPresent
    obtain ⟨content, hFound⟩ := FileTree.isFile_iff.mp (hFiles .received)
    refine ⟨devicePresent_of_lookup hFound, fun direction missing hMissing => ?_⟩
    obtain ⟨content, hFound⟩ := FileTree.isFile_iff.mp (hFiles direction)
    cases hFound.symm.trans (read_eq_missing_iff.mp hMissing).2
  · intro direction text hFound
    rw [read_of_lookup hFound]
    refine ⟨fun w => ofText_eq_ok_iff, fun n => ofText_of_large, fun hNone => ?_⟩
    exact exists_refused fun w hHolds => hNone ⟨w.toNat, w.toNat_lt_size, hHolds⟩

def counted : FileTree :=
  .directory [("class", .directory [("net", .directory
    [("vx", .directory [("statistics", .directory
        [("rx_bytes", .file "\t+0042\u00a0\n".toUTF8),
          ("tx_bytes", .file "18446744073709551616".toUTF8)])]),
      ("vy", .directory [("statistics", .directory [("rx_bytes", .file "4.2".toUTF8)])])])])]

theorem probes_and_reads_agree_counted :
    (countersPresent counted "/" "vx/." = true ∧ devicePresent counted "/" "vx/." = true) ∧
      (Holds "\t+0042\u00a0\n" 42 ∧ read counted "/" "vx/." .received = .ok 42) ∧
      (Holds "18446744073709551616" UInt64.size ∧
        read counted "/" "vx/." .sent = .error
          (refusal "/class/net/vx/./statistics/tx_bytes" "18446744073709551616" .tooLarge)) ∧
      (¬ ∃ n < UInt64.size, Holds "4.2" n) ∧
        read counted "/" "vy" .received =
          .error (refusal "/class/net/vy/statistics/rx_bytes" "4.2" .invalidDigit) := by
  obtain ⟨hProbes, hReads⟩ := probes_and_reads_agree counted "/" "vx/."
  have hPresent : countersPresent counted "/" "vx/." = true := by decide +kernel
  have hSmall : Holds "\t+0042\u00a0\n" 42 := holds_iff.mpr (spells_iff.mpr
    ⟨by decide +kernel, List.all_eq_true.mp (by decide +kernel), by decide +kernel⟩)
  have hLarge : Holds "18446744073709551616" UInt64.size := holds_iff.mpr (spells_iff.mpr
    ⟨by decide +kernel, List.all_eq_true.mp (by decide +kernel), by decide +kernel⟩)
  have hNone : ¬ ∃ n < UInt64.size, Holds "4.2" n := by
    rintro ⟨n, _, hHolds⟩
    have hDigits := List.all_eq_true.mpr (spells_iff.mp (holds_iff.mp hHolds)).2.1
    exact absurd hDigits (by decide +kernel)
  refine ⟨⟨hPresent, (hProbes hPresent).1⟩, ⟨hSmall, ?_⟩, ⟨hLarge, ?_⟩, hNone, ?_⟩
  · exact ((hReads .received "\t+0042\u00a0\n" rfl).1 42).mpr hSmall
  · exact (hReads .sent "18446744073709551616" rfl).2.1 _ hLarge (Nat.le_refl _)
  · obtain ⟨fault, hRefused, hRead⟩ :=
      ((probes_and_reads_agree counted "/" "vy").2 .received "4.2" rfl).2.2 hNone
    have hTrim : Text.trim "4.2".toList = ['4', '.', '2'] := by decide
    rw [hTrim] at hRefused
    cases hRefused with
    | tooLarge hLarge => exact absurd hLarge (by decide)
    | invalidDigit => exact hRead

end GatewayTelemetry.Counter
