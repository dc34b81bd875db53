import GatewayTelemetry.Prometheus.Response
import GatewayTelemetry.Proofs.Outcome

/-! # What a response document says

The envelope of a response and the result in it, in the words of the format and apart from any way
to read them. A body is read as a result just when it is a document of success that says it, and
every other body is a failed query.
-/

namespace GatewayTelemetry

namespace Draft

/-- What an object has under a name: nothing, or the value of its only member of that name. -/
inductive Member (fields : List (Option String × Draft)) (name : String) : Option Draft → Prop
  | missing (h : ∀ f ∈ fields, f.1 ≠ some name) : Member fields name none
  | given {front back : List (Option String × Draft)} {d : Draft}
      (hFields : fields = front ++ (some name, d) :: back)
      (hFront : ∀ f ∈ front, f.1 ≠ some name) (hBack : ∀ f ∈ back, f.1 ≠ some name) :
      Member fields name (some d)

/-- The cells of a record with fields of these names: an object gives them by its keys, all of them
readable, an array by position, the last ones left out or not. -/
inductive Gives (names : List String) : Draft → List (Option Draft) → Prop
  | keyed {fields : List (Option String × Draft)} {cells : List (Option Draft)}
      (hKeys : ∀ f ∈ fields, f.1 ≠ none) (hCells : List.Forall₂ (Member fields) names cells) :
      Gives names (.obj fields) cells
  | listed {items : List Draft} (hLength : items.length ≤ names.length) :
      Gives names (.arr items)
        (items.map some ++ List.replicate (names.length - items.length) none)

theorem member_iff {fields : List (Option String × Draft)} {name : String} {cell : Option Draft} :
    (match fields.filter fun f => f.1 = some name with
      | [] => some none
      | [f] => some (some f.2)
      | _ => none) = some cell ↔ Member fields name cell := by
  constructor
  · intro h
    split at h
    · rename_i hNone
      cases h
      exact .missing fun f hf => by simpa using List.filter_eq_nil_iff.mp hNone f hf
    · rename_i f hOnly
      cases h
      obtain ⟨front, back, rfl, hFront, hKey, hBack⟩ := List.filter_eq_cons_iff.mp hOnly
      obtain ⟨key, d⟩ := f
      obtain rfl : key = some name := by simpa using hKey
      exact .given rfl (fun f hf => by simpa using hFront f hf)
        fun f hf => by simpa using List.filter_eq_nil_iff.mp hBack f hf
    · cases h
  · have hOther : ∀ rest : List (Option String × Draft), (∀ f ∈ rest, f.1 ≠ some name) →
        rest.filter (fun f => f.1 = some name) = [] :=
      fun rest h => List.filter_eq_nil_iff.mpr fun f hf => by simpa using h f hf
    rintro (h | ⟨rfl, hFront, hBack⟩)
    · rw [hOther fields h]
    · rw [List.filter_append, List.filter_cons_of_pos (by simp), hOther _ hFront, hOther _ hBack]
      rfl

theorem all_keys_iff {fields : List (Option String × Draft)} :
    ¬ (fields.any fun f => f.1.isNone) = true ↔ ∀ f ∈ fields, f.1 ≠ none := by
  simp only [List.any_eq_true, Option.isNone_iff_eq_none, not_exists, not_and, ne_eq]

theorem fields?_eq_some_iff {names : List String} {d : Draft} {cells : List (Option Draft)} :
    d.fields? names = some cells ↔ Gives names d cells := by
  constructor
  · intro h
    unfold fields? at h
    split at h
    · split at h
      · cases h
      · rename_i hKeys
        refine .keyed (all_keys_iff.mp hKeys) ?_
        exact (mapM_eq_some_iff.mp h).imp fun _ _ => member_iff.mp
    · split at h
      · cases h
        exact .listed ‹_›
      · cases h
    · cases h
  · rintro (⟨hKeys, hCells⟩ | hLength)
    · rw [fields?, if_neg (all_keys_iff.mpr hKeys)]
      exact mapM_eq_some_iff.mpr (hCells.imp fun _ _ => member_iff.mpr)
    · rw [fields?, if_pos hLength]

inductive OptionalText : Option Draft → Prop
  | absent : OptionalText none
  | null : OptionalText (some .null)
  | given (s : String) : OptionalText (some (.str (some s)))

theorem text?_eq_some_iff {d : Draft} {s : String} : d.text? = some s ↔ d = .str (some s) := by
  cases d <;> simp [text?]

theorem optionalText_iff {cell : Option Draft} :
    (∃ s, optional? text? cell = some s) ↔ OptionalText cell := by
  constructor
  · rintro ⟨s, h⟩
    unfold optional? at h
    split at h
    · exact .absent
    · exact .null
    · obtain ⟨t, hText, _⟩ := Option.map_eq_some_iff.mp h
      rw [text?_eq_some_iff.mp hText]
      exact .given t
  · rintro (_ | _ | s)
    · exact ⟨none, rfl⟩
    · exact ⟨none, rfl⟩
    · exact ⟨some s, rfl⟩

end Draft

open Draft (Gives OptionalText)

namespace Prometheus

/-- An object of texts; of two with one key the later one counts. -/
inductive IsLabels : Draft → Labels → Prop
  | texts (pairs : List (String × String)) :
      IsLabels (.obj (pairs.map fun p => (some p.1, .str (some p.2)))) (Keyed.ofList pairs)

inductive IsMetric : Option Draft → Labels → Prop
  | absent : IsMetric none ∅
  | given {d : Draft} {labels : Labels} (h : IsLabels d labels) : IsMetric (some d) labels

inductive IsPoint : Draft → RawPoint → Prop
  | pair {d : Draft} {time : Float} (hTime : d.float? = some time) (raw : String) :
      IsPoint (.arr [d, .str (some raw)]) (time, raw)

inductive IsSample : Draft → InstantSample → Prop
  | cells {d value : Draft} {metric : Option Draft} {s : InstantSample}
      (hCells : Gives ["metric", "value"] d [metric, some value])
      (hMetric : IsMetric metric s.labels) (hValue : IsPoint value s.value) : IsSample d s

inductive IsSeries : Draft → RangeSeries → Prop
  | cells {d : Draft} {metric : Option Draft} {items : List Draft} {s : RangeSeries}
      (hCells : Gives ["metric", "values"] d [metric, some (.arr items)])
      (hMetric : IsMetric metric s.labels) (hValues : List.Forall₂ IsPoint items s.values) :
      IsSeries d s

theorem readLabels_eq_some_iff {d : Draft} {labels : Labels} :
    readLabels d = some labels ↔ IsLabels d labels := by
  have hMember : ∀ (f : Option String × Draft) (p : String × String),
      readLabel f = some p ↔ f = (some p.1, .str (some p.2)) := by
    rintro ⟨key, d⟩ ⟨name, s⟩
    simp [readLabel, Option.bind_eq_some_iff, Draft.text?_eq_some_iff]
  constructor
  · intro h
    unfold readLabels at h
    split at h
    · obtain ⟨pairs, hPairs, rfl⟩ := Option.map_eq_some_iff.mp h
      have hSame : ∀ {fields : List (Option String × Draft)} {pairs : List (String × String)},
          List.Forall₂ (fun f p => readLabel f = some p) fields pairs →
            fields = pairs.map fun p => (some p.1, .str (some p.2)) := by
        intro fields pairs h
        induction h with
        | nil => rfl
        | cons hFirst _ ih => rw [List.map_cons, ← ih, (hMember _ _).mp hFirst]
      rw [hSame (mapM_eq_some_iff.mp hPairs)]
      exact .texts pairs
    · cases h
  · rintro ⟨pairs⟩
    refine Option.map_eq_some_iff.mpr ⟨pairs, mapM_eq_some_iff.mpr ?_, rfl⟩
    rw [List.forall₂_map_left_iff, List.forall₂_same]
    exact fun p _ => (hMember _ p).mpr rfl

theorem readMetric_eq_some_iff {cell : Option Draft} {labels : Labels} :
    readMetric cell = some labels ↔ IsMetric cell labels := by
  cases cell with
  | none =>
    constructor
    · rintro ⟨⟩
      exact .absent
    · rintro ⟨⟩
      rfl
  | some d =>
    refine readLabels_eq_some_iff.trans ⟨.given, ?_⟩
    rintro ⟨⟩
    assumption

theorem readPoint_eq_some_iff {d : Draft} {p : RawPoint} : readPoint d = some p ↔ IsPoint d p := by
  constructor
  · intro h
    unfold readPoint at h
    split at h
    · obtain ⟨time, hTime, h⟩ := Option.bind_eq_some_iff.mp h
      obtain ⟨raw, hRaw, h⟩ := Option.bind_eq_some_iff.mp h
      cases h
      rw [Draft.text?_eq_some_iff.mp hRaw]
      exact .pair hTime raw
    · cases h
  · rintro ⟨hTime, raw⟩
    simp [readPoint, hTime, Draft.text?]

theorem InstantSample.read_eq_some_iff {d : Draft} {s : InstantSample} :
    InstantSample.read d = some s ↔ IsSample d s := by
  constructor
  · intro h
    unfold InstantSample.read at h
    obtain ⟨cells, hCells, h⟩ := Option.bind_eq_some_iff.mp h
    split at h
    · obtain ⟨labels, hLabels, h⟩ := Option.bind_eq_some_iff.mp h
      obtain ⟨point, hPoint, h⟩ := Option.bind_eq_some_iff.mp h
      cases h
      exact .cells (Draft.fields?_eq_some_iff.mp hCells) (readMetric_eq_some_iff.mp hLabels)
        (readPoint_eq_some_iff.mp hPoint)
    · cases h
  · rintro ⟨hCells, hMetric, hValue⟩
    simp [InstantSample.read, Draft.fields?_eq_some_iff.mpr hCells,
      readMetric_eq_some_iff.mpr hMetric, readPoint_eq_some_iff.mpr hValue]

theorem readPoints_eq_some_iff {items : List Draft} {points : List RawPoint} :
    items.mapM readPoint = some points ↔ List.Forall₂ IsPoint items points := by
  simp only [mapM_eq_some_iff, readPoint_eq_some_iff]

theorem RangeSeries.read_eq_some_iff {d : Draft} {s : RangeSeries} :
    RangeSeries.read d = some s ↔ IsSeries d s := by
  constructor
  · intro h
    unfold RangeSeries.read at h
    obtain ⟨cells, hCells, h⟩ := Option.bind_eq_some_iff.mp h
    split at h
    · obtain ⟨labels, hLabels, h⟩ := Option.bind_eq_some_iff.mp h
      obtain ⟨points, hPoints, h⟩ := Option.bind_eq_some_iff.mp h
      cases h
      exact .cells (Draft.fields?_eq_some_iff.mp hCells) (readMetric_eq_some_iff.mp hLabels)
        (readPoints_eq_some_iff.mp hPoints)
    · cases h
  · rintro ⟨hCells, hMetric, hValues⟩
    simp [RangeSeries.read, Draft.fields?_eq_some_iff.mpr hCells,
      readMetric_eq_some_iff.mpr hMetric, readPoints_eq_some_iff.mpr hValues]

def ResultType.name : ResultType → String
  | matrix => "matrix"
  | vector => "vector"
  | scalar => "scalar"
  | text => "string"

/-- A type is its name, or an object with the name as its only key over null. -/
inductive IsType : Draft → ResultType → Prop
  | named (t : ResultType) : IsType (.str (some t.name)) t
  | keyed (t : ResultType) : IsType (.obj [(some t.name, .null)]) t

inductive IsResult : ResultType → Draft → Result → Prop
  | matrix {items : List Draft} {series : List RangeSeries}
      (h : List.Forall₂ IsSeries items series) : IsResult .matrix (.arr items) (.matrix series)
  | vector {items : List Draft} {samples : List InstantSample}
      (h : List.Forall₂ IsSample items samples) : IsResult .vector (.arr items) (.vector samples)
  | scalar (content : Draft) : IsResult .scalar content .scalar
  | text (content : Draft) : IsResult .text content .text

def isDataMember (f : Option String × Draft) : Bool :=
  f.1 = some "resultType" || f.1 = some "result"

/-- A result under its type. In front of the type it has to have a value, whatever type that is. -/
inductive IsData : Draft → Result → Prop
  | listed {type content : Draft} {t : ResultType} {r : Result} (hType : IsType type t)
      (hResult : IsResult t content r) : IsData (.arr [type, content]) r
  | typeFirst {fields : List (Option String × Draft)} {type content : Draft} {t : ResultType}
      {r : Result} (hKeys : ∀ f ∈ fields, f.1 ≠ none)
      (hMembers : fields.filter isDataMember =
        [(some "resultType", type), (some "result", content)])
      (hType : IsType type t) (hResult : IsResult t content r) : IsData (.obj fields) r
  | resultFirst {fields : List (Option String × Draft)} {type content : Draft} {t : ResultType}
      {r : Result} {value : Json} (hKeys : ∀ f ∈ fields, f.1 ≠ none)
      (hMembers : fields.filter isDataMember =
        [(some "result", content), (some "resultType", type)])
      (hValue : content.value? (Json.nestingLimit - 2) = some value)
      (hType : IsType type t) (hResult : IsResult t content r) : IsData (.obj fields) r

theorem ResultType.ofName?_eq_some_iff {name : String} {t : ResultType} :
    ofName? name = some t ↔ name = t.name := by
  constructor
  · intro h
    obtain ⟨front, back, hTable, _⟩ := List.lookup_eq_some_iff.mp h
    have hMember : (name, t) ∈ front ++ (name, t) :: back := by simp
    rw [← hTable] at hMember
    simp only [List.mem_cons, Prod.mk.injEq, List.not_mem_nil, or_false] at hMember
    rcases hMember with ⟨rfl, rfl⟩ | ⟨rfl, rfl⟩ | ⟨rfl, rfl⟩ | ⟨rfl, rfl⟩ <;> rfl
  · rintro rfl
    cases t <;> rfl

theorem ResultType.read_eq_some_iff {d : Draft} {t : ResultType} :
    ResultType.read d = some t ↔ IsType d t := by
  constructor
  · intro h
    unfold ResultType.read at h
    split at h
    · obtain ⟨name, rfl, hName⟩ := Option.bind_eq_some_iff.mp h
      rw [ofName?_eq_some_iff.mp hName]
      exact .named t
    · obtain ⟨name, rfl, hName⟩ := Option.bind_eq_some_iff.mp h
      rw [ofName?_eq_some_iff.mp hName]
      exact .keyed t
    · cases h
  · have hName : ofName? t.name = some t := ofName?_eq_some_iff.mpr rfl
    rintro (_ | _) <;> exact hName

theorem Result.readAs_eq_some_iff {t : ResultType} {d : Draft} {r : Result} :
    Result.readAs t d = some r ↔ IsResult t d r := by
  constructor
  · intro h
    unfold Result.readAs at h
    split at h
    · obtain ⟨series, hSeries, rfl⟩ := Option.map_eq_some_iff.mp h
      simp only [mapM_eq_some_iff, RangeSeries.read_eq_some_iff] at hSeries
      exact .matrix hSeries
    · obtain ⟨samples, hSamples, rfl⟩ := Option.map_eq_some_iff.mp h
      simp only [mapM_eq_some_iff, InstantSample.read_eq_some_iff] at hSamples
      exact .vector hSamples
    · cases h
      exact .scalar d
    · cases h
      exact .text d
    · cases h
  · rintro (hSeries | hSamples | _ | _)
    · refine Option.map_eq_some_iff.mpr ⟨_, ?_, rfl⟩
      simpa only [mapM_eq_some_iff, RangeSeries.read_eq_some_iff] using hSeries
    · refine Option.map_eq_some_iff.mpr ⟨_, ?_, rfl⟩
      simpa only [mapM_eq_some_iff, InstantSample.read_eq_some_iff] using hSamples
    · rfl
    · rfl

theorem Result.read_eq_some_iff {d : Draft} {r : Result} : Result.read d = some r ↔ IsData d r := by
  constructor
  · intro h
    unfold Result.read at h
    split at h
    · obtain ⟨t, hType, hResult⟩ := Option.bind_eq_some_iff.mp h
      exact .listed (ResultType.read_eq_some_iff.mp hType) (Result.readAs_eq_some_iff.mp hResult)
    · split at h
      · cases h
      · rename_i fields hKeys
        have hReadable := Draft.all_keys_iff.mp hKeys
        unfold Result.readPair at h
        split at h
        · rename_i first a second b hMembers
          split at h
          · rename_i hNames
            obtain ⟨rfl, rfl⟩ : first = some "resultType" ∧ second = some "result" := by
              simpa using hNames
            obtain ⟨t, hType, hResult⟩ := Option.bind_eq_some_iff.mp h
            exact .typeFirst hReadable hMembers (ResultType.read_eq_some_iff.mp hType)
              (Result.readAs_eq_some_iff.mp hResult)
          · split at h
            · rename_i hNames
              obtain ⟨rfl, rfl⟩ : first = some "result" ∧ second = some "resultType" := by
                simpa using hNames
              obtain ⟨value, hValue, h⟩ := Option.bind_eq_some_iff.mp h
              obtain ⟨t, hType, hResult⟩ := Option.bind_eq_some_iff.mp h
              exact .resultFirst hReadable hMembers hValue (ResultType.read_eq_some_iff.mp hType)
                (Result.readAs_eq_some_iff.mp hResult)
            · cases h
        · cases h
    · cases h
  · rintro (⟨hType, hResult⟩ | ⟨hKeys, hMembers, hType, hResult⟩ |
      ⟨hKeys, hMembers, hValue, hType, hResult⟩)
    · simp [Result.read, ResultType.read_eq_some_iff.mpr hType,
        Result.readAs_eq_some_iff.mpr hResult]
    · rw [Result.read, if_neg (Draft.all_keys_iff.mpr hKeys)]
      refine (congrArg (Result.readPair _) hMembers).trans ?_
      simp [Result.readPair, ResultType.read_eq_some_iff.mpr hType,
        Result.readAs_eq_some_iff.mpr hResult]
    · rw [Result.read, if_neg (Draft.all_keys_iff.mpr hKeys)]
      refine (congrArg (Result.readPair _) hMembers).trans ?_
      simp [Result.readPair, hValue, ResultType.read_eq_some_iff.mpr hType,
        Result.readAs_eq_some_iff.mpr hResult]

inductive Succeeds : Draft → Result → Prop
  | envelope {d data : Draft} {errorType error : Option Draft} {r : Result}
      (hFields : Gives ["status", "data", "errorType", "error"] d
        [some (.str (some "success")), some data, errorType, error])
      (hData : IsData data r) (hErrorType : OptionalText errorType) (hError : OptionalText error) :
      Succeeds d r

theorem optional?_read_eq_some_iff {cell : Option Draft} {r : Result} :
    Draft.optional? Result.read cell = some (some r) ↔ ∃ data, cell = some data ∧ IsData data r := by
  constructor
  · intro h
    unfold Draft.optional? at h
    split at h
    · cases h
    · cases h
    · obtain ⟨found, hRead, hFound⟩ := Option.map_eq_some_iff.mp h
      cases hFound
      exact ⟨_, rfl, Result.read_eq_some_iff.mp hRead⟩
  · rintro ⟨data, rfl, hData⟩
    have hRead : Draft.optional? Result.read (some data) = (Result.read data).map some := by
      unfold Draft.optional?
      split
      · contradiction
      · rename_i hNull
        cases hNull
        cases hData
      · rename_i hSame
        cases hSame
        rfl
    rw [hRead, Result.read_eq_some_iff.mpr hData]
    rfl

theorem Envelope.exists_success_iff {d : Draft} {r : Result} :
    (∃ e, Envelope.read d = some e ∧ e.status = success ∧ e.result = some r) ↔ Succeeds d r := by
  constructor
  · rintro ⟨e, h, hStatus, hResult⟩
    unfold Envelope.read at h
    obtain ⟨cells, hCells, h⟩ := Option.bind_eq_some_iff.mp h
    split at h
    · obtain ⟨status, hText, h⟩ := Option.bind_eq_some_iff.mp h
      obtain ⟨result, hData, h⟩ := Option.bind_eq_some_iff.mp h
      obtain ⟨errorType, hErrorType, h⟩ := Option.bind_eq_some_iff.mp h
      obtain ⟨error, hError, h⟩ := Option.bind_eq_some_iff.mp h
      cases h
      obtain rfl : status = "success" := hStatus
      obtain rfl : result = some r := hResult
      obtain ⟨data, rfl, hSays⟩ := optional?_read_eq_some_iff.mp hData
      rw [Draft.text?_eq_some_iff.mp hText] at hCells
      exact .envelope (Draft.fields?_eq_some_iff.mp hCells) hSays
        (Draft.optionalText_iff.mp ⟨_, hErrorType⟩) (Draft.optionalText_iff.mp ⟨_, hError⟩)
    · cases h
  · rintro ⟨hFields, hData, hErrorType, hError⟩
    obtain ⟨errorType, hErrorType⟩ := Draft.optionalText_iff.mpr hErrorType
    obtain ⟨error, hError⟩ := Draft.optionalText_iff.mpr hError
    have hResult := optional?_read_eq_some_iff.mpr ⟨_, rfl, hData⟩
    refine ⟨⟨"success", some r, errorType, error⟩, ?_, rfl, rfl⟩
    simp [Envelope.read, Draft.fields?_eq_some_iff.mpr hFields, Draft.text?, hResult, hErrorType,
      hError]

theorem readBody_eq_ok_iff {body : String} {r : Result} :
    readBody body = .ok r ↔ ∃ d, Draft.read? body = some d ∧ Succeeds d r := by
  simp only [← Envelope.exists_success_iff]
  constructor
  · intro h
    unfold readBody at h
    split at h
    · rename_i e hRead
      obtain ⟨d, hBody, hEnvelope⟩ := Option.bind_eq_some_iff.mp hRead
      split at h
      · cases h
      · rename_i hStatus
        split at h
        · rename_i found hFound
          cases h
          exact ⟨d, hBody, e, hEnvelope, not_not.mp hStatus, hFound⟩
        · cases h
    · cases h
  · rintro ⟨d, hBody, e, hEnvelope, hStatus, hResult⟩
    simp [readBody, hBody, hEnvelope, hStatus, hResult]

theorem query_of_readBody {body : String} {e : SourceError} (h : readBody body = .error e) :
    ∃ detail, e = .query detail := by
  unfold readBody at h
  split at h
  · split at h
    · cases h
      exact ⟨_, rfl⟩
    · split at h
      · cases h
      · cases h
        exact ⟨_, rfl⟩
  · cases h
    exact ⟨_, rfl⟩

end Prometheus

end GatewayTelemetry
