/-
Purpose: What the session keeps of its events, and what the receipt, the timeline and the
  trace projection read from that: they are faithful to the events that were recorded
  exactly if none of these was cut down for its size.
-/
import WeaveCodex.ControlPlane.Proofs.StopLaw
import WeaveCodex.ControlPlane.RunReceipt

namespace WeaveCodex.ControlPlane

open Library Fields Recording List

/-! ### The law -/

namespace Recording

/-- The event is not cut down: with its phase it takes at most 16000 characters. -/
def Short (python : PythonText) (recording : Recording) : Prop :=
  python.encodedLength (recording.value ++ [("phase", .text recording.label)]) ≤ 16000

/-- The type of the item that the event completes. -/
def itemType (recording : Recording) : Json :=
  (Fields.get recording.value.item "type").getD (.text "unknown")

/-- The event completes an item of the type. -/
def completes (type : String) (recording : Recording) : Bool :=
  recording.value.hasMethod "item/completed" && recording.itemType.equalsText type

/-- What the session keeps of the event. -/
def kept (python : PythonText) (recording : Recording) : Event :=
  sessionEvent python recording.label recording.value

end Recording

/-- The number of completed items of a type that were delivered to the sinks. -/
def deliveredCount (recordings : List Recording) (type : String) : Nat :=
  recordings.countP (Recording.completes type)

/-- The phases of the events that the timeline shows. -/
def shownLabels (python : PythonText) (recordings : List Recording) : List String :=
  recordings.zipIdx.filterMap fun entry =>
    (projectEvent python (entry.1.kept python) entry.2).map fun _ => entry.1.label

/-- Everything that is derived from the kept events agrees with what was recorded. -/
structure Faithful (python : PythonText) (recordings : List Recording) : Prop where
  counts : ∃ counts, completedItemsByType (keptEvents python recordings) = .ok counts ∧
    (∀ type, counts type = deliveredCount recordings type) ∧
    ((∃ recording ∈ recordings, recording.completes "fileChange" = true) →
      recordedFileChanges counts ≠ 0)
  phases : ∀ recording ∈ recordings,
    Fields.get (recording.kept python) "phase" = some (.text recording.label)
  timeline : (projectedTimeline python (keptEvents python recordings)).map TimelineEntry.phase =
    shownLabels python recordings
  /-- All that `project_events` reads of the phase of an event. -/
  projection : ∀ recording ∈ recordings, explicitPhase (recording.kept python) = recording.label

/-! ### Events that are not cut down -/

section

variable {python : PythonText} {recording : Recording} {recordings : List Recording}

theorem keptEvents_eq : keptEvents python recordings = recordings.map (kept python) :=
  rfl

/-- A stub has no phase. -/
theorem Recording.phase_kept_eq_some_iff :
    get (recording.kept python) "phase" = some (.text recording.label) ↔ recording.Short python := by
  rw [kept, sessionEvent, Short]
  by_cases long : 16000 < python.encodedLength (recording.value ++ [("phase", .text recording.label)])
  · rw [if_pos long]
    constructor
    · intro found
      cases found
    · intro short
      omega
  · rw [if_neg long]
    refine ⟨fun _ => Nat.le_of_not_lt long, fun _ => ?_⟩
    exact Dict.ofEntries_concat_self _ _ _

theorem Recording.get_kept (short : recording.Short python) {key : String} (notPhase : key ≠ "phase") :
    get (recording.kept python) key = get recording.value key :=
  get_sessionEvent notPhase (not_lt.mpr short)

theorem Recording.completes_kept (short : recording.Short python) (type : String) :
    ((recording.kept python).hasMethod "item/completed" &&
      ((get (recording.kept python).item "type").getD (.text "unknown")).equalsText type) =
      recording.completes type := by
  have params : (recording.kept python).params = recording.value.params := by
    rw [Event.params, get_kept short (by decide)]
    rfl
  have item : (recording.kept python).item = recording.value.item := by
    rw [Event.item, params]
    rfl
  rw [Event.hasMethod, get_kept short (by decide), item]
  rfl

theorem countable_keptEvents : ∀ event ∈ keptEvents python recordings, event.Countable := by
  refine forall_mem_map.mpr fun recording _ => ?_
  exact countable_sessionEvent python recording.label recording.countable

/-- The receipt counts the delivered items. -/
theorem completedItemsByType_of_short (short : ∀ recording ∈ recordings, recording.Short python) :
    completedItemsByType (keptEvents python recordings) = .ok (deliveredCount recordings) := by
  rw [completedItemsByType, completedItemTypes_ok countable_keptEvents, Except.map]
  congr 1
  funext type
  rw [keptEvents_eq, countP_map, countP_filter, countP_map, deliveredCount]
  apply countP_congr
  intro recording mem
  have same := recording.completes_kept (short recording mem) type
  rw [← same, Bool.and_comm]
  rfl

theorem recordedFileChanges_ne_zero (delivered : ∃ recording ∈ recordings,
    recording.completes "fileChange" = true) :
    recordedFileChanges (deliveredCount recordings) ≠ 0 := by
  have positive : deliveredCount recordings "fileChange" ≠ 0 := by
    obtain ⟨recording, mem, completes⟩ := delivered
    exact Nat.pos_iff_ne_zero.mp (countP_pos_iff.mpr ⟨recording, mem, completes⟩)
  rw [recordedFileChanges, if_pos positive]
  exact positive

/-! ### The timeline -/

theorem phase_projectEvent {event : Event} {index : Nat} {entry : TimelineEntry}
    (shown : projectEvent python event index = some entry) :
    entry.phase = ((get event "phase").map python.str).getD "runtime" := by
  unfold projectEvent at shown
  extract_lets method phase itemType at shown
  split at shown
  · cases shown
  split at shown
  · cases shown
  split at shown
  · cases shown
  obtain ⟨_, -, rfl⟩ := Option.map_eq_some_iff.mp shown
  rfl

/-- Events that are kept whole are shown under their own phases. -/
theorem timeline_of_short (short : ∀ recording ∈ recordings, recording.Short python) :
    (projectedTimeline python (keptEvents python recordings)).map TimelineEntry.phase =
      shownLabels python recordings := by
  unfold projectedTimeline
  extract_lets projected
  have renumbered : ((projected.zipIdx 1).map fun entry =>
      ({ entry.1 with index := entry.2 } : TimelineEntry)).map TimelineEntry.phase =
      projected.map TimelineEntry.phase := by
    rw [map_map]
    have phases : (projected.zipIdx 1).map (TimelineEntry.phase ∘ Prod.fst) =
        projected.map TimelineEntry.phase := by
      rw [← map_map, zipIdx_map_fst]
    exact phases
  rw [renumbered, shownLabels, map_filterMap, keptEvents_eq, zipIdx_map, filterMap_map]
  apply filterMap_congr
  rintro ⟨recording, index⟩ mem
  have listed : recording ∈ recordings := fst_mem_of_mem_zipIdx mem
  have phase := phase_kept_eq_some_iff.mpr (short recording listed)
  cases shown : projectEvent python (recording.kept python) index with
  | none => simp [shown]
  | some =>
    have entryPhase := phase_projectEvent shown
    rw [phase, Option.map_some, Option.getD_some, python.str_text] at entryPhase
    simp [shown, entryPhase]

end

/-- For every list of recorded events, the receipt's counters, the phases of the kept
events, the timeline and the trace projection are faithful if and only if no event takes
more than 16000 characters. -/
theorem receipt_faithful_iff (python : PythonText) (recordings : List Recording) :
    Faithful python recordings ↔ ∀ recording ∈ recordings, recording.Short python := by
  constructor
  · intro faithful recording member
    exact phase_kept_eq_some_iff.mp (faithful.phases recording member)
  · intro short
    have phases : ∀ recording ∈ recordings,
        get (recording.kept python) "phase" = some (.text recording.label) := by
      intro recording member
      exact phase_kept_eq_some_iff.mpr (short recording member)
    refine ⟨⟨_, completedItemsByType_of_short short, fun _ => rfl, ?_⟩, phases,
      timeline_of_short short, ?_⟩
    · exact recordedFileChanges_ne_zero
    · intro recording member
      rw [explicitPhase, phases recording member]
      rfl

/-! ### A large file change -/

/-- `str` of the values below. -/
def spelled : Json → String
  | .text text => text
  | _ => ""

/-- With `str` as above and the length of `json.dumps`. -/
def encodingPython : PythonText where
  loads _ := .error "JSONDecodeError"
  str := spelled
  str_text := fun _ => rfl
  encodedLength fields := (dumps (fun _ => "") false (.dict fields)).length

/-- The completed change of one file, in a phase `build`. -/
def fileChange (diff : String) : Recording where
  label := "build"
  value :=
    [("method", .text "item/completed"),
      ("params", .dict [("item", .dict [("type", .text "fileChange"), ("id", .text "item-1"),
        ("changes", .list [.dict [("path", .text "app.py"), ("diff", .text diff)]]),
        ("status", .text "completed")])])]
  countable _ := ⟨rfl, rfl, trivial⟩

section

variable {diff : String} (large : 16000 ≤ (diff.toList.flatMap escapeChar).length)
include large

theorem fileChange_not_short : ¬ (fileChange diff).Short encodingPython := by
  simp only [Recording.Short, encodingPython, fileChange, dumps, dumpsChars, dumpsFields,
    dumpsItems, escapeText, intercalate, cons_append, nil_append, map_cons,
    map_nil, intersperse, flatten_cons, flatten_nil, String.length_ofList,
    length_append, length_cons, Bool.false_eq_true, if_false]
  omega

theorem keptEvents_fileChange : keptEvents encodingPython [fileChange diff] =
    [[("method", .text "item/completed"), ("truncated", .bool true)]] := by
  have long := Nat.lt_of_not_le (fileChange_not_short large)
  rw [keptEvents, map_cons, map_nil, sessionEvent]
  simp only [if_pos long]
  rfl

end

/-- A diff of added characters. -/
def plainDiff (count : Nat) : String :=
  String.ofList (replicate count '+')

theorem length_escape_plainDiff (count : Nat) :
    ((plainDiff count).toList.flatMap escapeChar).length = count := by
  have plain : escapeChar '+' = ['+'] := by decide
  rw [plainDiff, String.toList_ofList]
  induction count with
  | zero => rfl
  | succ _ ih =>
    rw [replicate_succ, flatMap_cons, length_append, ih, plain, length_singleton, add_comm]

/-- The run completed a file change, the receipt counts none, and the kept event has lost
its phase. -/
theorem largeFileChange_unfaithful : deliveredCount [fileChange (plainDiff 16000)] "fileChange" = 1 ∧
    (∃ counts, completedItemsByType (keptEvents encodingPython [fileChange (plainDiff 16000)]) =
      .ok counts ∧ counts "fileChange" = 0 ∧ counts "unknown" = 1 ∧ recordedFileChanges counts = 0) ∧
    (keptEvents encodingPython [fileChange (plainDiff 16000)]).map (Fields.get · "phase") =
      [none] := by
  refine ⟨rfl, ?_⟩
  rw [keptEvents_fileChange (le_of_eq (length_escape_plainDiff 16000).symm)]
  exact ⟨⟨_, rfl, rfl, rfl, rfl⟩, rfl⟩

end WeaveCodex.ControlPlane
