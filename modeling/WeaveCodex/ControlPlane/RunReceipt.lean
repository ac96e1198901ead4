/-
Purpose: What a run leaves of the events it was passed: the events that the session
  keeps, the counters of the receipt, the timeline, and the file changes that artifact
  discovery reads from the receipt.
Trusted boundary: translation of `RunSession.event`, `projected_timeline`, `_project_event`,
  `_short_text` and the receipt of `HarnessRunner.run` in `weave_codex/runtime.py`, of
  `recorded_file_changes` in `weave_codex/artifact_preview.py`, and of Python's documented
  `json.dumps`; of `project_events` only what it reads as the phase of an event is modelled
-/
import WeaveCodex.ControlPlane.HarnessRunner

namespace WeaveCodex.ControlPlane

open Interaction List

/-! ### Encoded values -/

def hexDigit (digit : Nat) : Char :=
  if digit < 10 then Char.ofNat (48 + digit) else Char.ofNat (87 + digit)

/-- The escape `\uXXXX` of a UTF-16 code unit. -/
def unicodeEscape (unit : Nat) : List Char :=
  ['\\', 'u', hexDigit (unit / 4096 % 16), hexDigit (unit / 256 % 16),
    hexDigit (unit / 16 % 16), hexDigit (unit % 16)]

/-- One character of an encoded text; everything outside printable ASCII is escaped. -/
def escapeChar (char : Char) : List Char :=
  let code := char.toNat
  if char = '"' then ['\\', '"']
  else if char = '\\' then ['\\', '\\']
  else if char = '\n' then ['\\', 'n']
  else if char = '\r' then ['\\', 'r']
  else if char = '\t' then ['\\', 't']
  else if code = 8 then ['\\', 'b']
  else if code = 12 then ['\\', 'f']
  else if 32 ≤ code ∧ code ≤ 126 then [char]
  else if code < 65536 then unicodeEscape code
  else
    unicodeEscape (0xD800 + (code - 65536) / 1024) ++ unicodeEscape (0xDC00 + (code - 65536) % 1024)

def escapeText (text : String) : List Char :=
  ['"'] ++ text.toList.flatMap escapeChar ++ ['"']

/-- The float texts of `json.dumps`; `str` of a finite float is its `repr`. -/
def dumpsFloat (str : Json → String) : PyFloat → List Char
  | .infinite negative => (if negative then "-Infinity" else "Infinity").toList
  | .nan => "NaN".toList
  | .finite negative magnitude => (str (.float (.finite negative magnitude))).toList

mutual

/-- The characters of `json.dumps(value)`, with sorted keys if `sortKeys` is set. -/
def dumpsChars (str : Json → String) (sortKeys : Bool) : Json → List Char
  | .null => "null".toList
  | .bool value => (if value then "true" else "false").toList
  | .int value => (toString value).toList
  | .float value => dumpsFloat str value
  | .text value => escapeText value
  | .list items =>
    ['['] ++ intercalate [',', ' '] (dumpsItems str sortKeys items) ++ [']']
  | .dict fields =>
    let entries := dumpsFields str sortKeys fields
    let entries :=
      if sortKeys then entries.insertionSort fun left right => left.1 ≤ right.1 else entries
    ['{'] ++ intercalate [',', ' ']
      (entries.map fun entry => escapeText entry.1 ++ [':', ' '] ++ entry.2) ++ ['}']

def dumpsItems (str : Json → String) (sortKeys : Bool) : List Json → List (List Char)
  | [] => []
  | item :: items => dumpsChars str sortKeys item :: dumpsItems str sortKeys items

def dumpsFields (str : Json → String) (sortKeys : Bool) :
    List (String × Json) → List (String × List Char)
  | [] => []
  | (key, value) :: fields =>
    (key, dumpsChars str sortKeys value) :: dumpsFields str sortKeys fields

end

/-- `json.dumps(value, default=str)`; decoded values never need the default. -/
def dumps (str : Json → String) (sortKeys : Bool) (value : Json) : String :=
  String.ofList (dumpsChars str sortKeys value)

/-! ### Recorded events -/

/-- One call of `session.event`: an event that the receipt can count, and its phase. -/
structure Recording where
  label : String
  value : Event
  countable : value.Countable

variable (python : PythonText)

/-- `session.events` after the calls. -/
def keptEvents (recordings : List Recording) : List Event :=
  recordings.map fun recording => sessionEvent python recording.label recording.value

/-! ### The receipt -/

/-- `observed.completedItemsByType`, as the number of completed items of a type. -/
def completedItemsByType (events : List Event) : Except String (String → Nat) :=
  (completedItemTypes events).map fun types type => types.countP fun counted => counted.equalsText type

/-- `recorded_file_changes` of the artifact discovery. -/
def recordedFileChanges (completedTypes : String → Nat) : Nat :=
  if completedTypes "fileChange" ≠ 0 then completedTypes "fileChange"
  else completedTypes "file_change"

/-! ### The timeline -/

inductive TimelineKind where
  | runtime | stage | model | usage | toolCall | toolResult | reasoning | answer | item | turn
  | approval
deriving DecidableEq, Repr

structure TimelineEntry where
  index : Nat
  phase : String
  kind : TimelineKind
  title : String
  detail : String
  method : String
  truncated : Bool
deriving DecidableEq, Repr

/-- `first or second or …`: the first true value, or else the last one. -/
def firstTrue : List (Option Json) → Option Json
  | [] => none
  | [last] => last
  | value :: next :: values =>
    if value.any Json.truthy then value else firstTrue (next :: values)

/-- `_short_text` at its default limit; an absent value is `None`. -/
def shortText (value : Option Json) : String :=
  let text :=
    match value with
    | none | some .null => ""
    | some (.text text) => text
    | some value => dumps python.str true value
  let text := " ".intercalate (splitWords text)
  if text.length ≤ 260 then text else String.ofList (text.toList.take 259) ++ "…"

/-- The kind, title and detail of an item event. -/
def projectItem (completed : Bool) (itemType : String) (item : Fields) :
    TimelineKind × String × String :=
  let toolKind : TimelineKind := if completed then .toolResult else .toolCall
  let short keys := shortText python (firstTrue (keys.map (Fields.get item)))
  if itemType = "commandExecution" then
    (toolKind, if completed then "Command finished" else "Command requested",
      short ["command", "parsedCommand", "status", "aggregatedOutput"])
  else if itemType = "fileChange" then
    (toolKind, if completed then "File change recorded" else "File change requested",
      short ["changes", "status"])
  else if itemType = "reasoning" then
    (.reasoning, "Reasoning summary", short ["summary", "content"])
  else if itemType = "agentMessage" then
    (.answer, "Agent answer", short ["text"])
  else
    (.item, (if itemType = "" then "Codex item" else itemType) ++ " " ++
        (if completed then "completed" else "started"),
      short ["status", "text"])

/-- The kind, title and detail of an event; other events are not shown. -/
def projectBody (method phase : String) (params item : Fields)
    (itemType : String) : Option (TimelineKind × String × String) :=
  if method = "harness/stage" then
    some (.stage, ((Fields.get params "title").map python.str).getD phase,
      shortText python (Fields.get params "detail"))
  else if method = "rawResponse/completed" then
    some (.model, "Model completion", "A model response completed inside this controller turn.")
  else if method = "thread/tokenUsage/updated" then
    some (.usage, "Token usage updated", shortText python (Fields.get params "tokenUsage"))
  else if method = "item/started" ∨ method = "item/completed" then
    some (projectItem python (decide (method = "item/completed")) itemType item)
  else if method = "turn/completed" then
    let turn := (Fields.get params "turn").getD (.dict [])
    some (.turn, "Controller turn completed", match turn.asDict with
      | some turn => shortText python (Fields.get turn "status")
      | none => "")
  else if "Approval".toList <:+: method.toList ∨ "approval".toList <:+: method.toList then
    some (.approval, "Approval requested", shortText python (some (.dict params)))
  else none

/-- `_project_event`. -/
def projectEvent (event : Event) (index : Nat) : Option TimelineEntry :=
  let method := ((Fields.get event "method").map python.str).getD "event"
  let phase := ((Fields.get event "phase").map python.str).getD "runtime"
  let itemType := ((Fields.get event.item "type").map python.str).getD ""
  if method = "rawResponseItem/completed" ∨ method = "item/agentMessage/delta" ∨
      method = "turn/started" then none
  else if method = "item/started" ∧ itemType ≠ "commandExecution" ∧ itemType ≠ "fileChange" then
    none
  else if method = "item/completed" ∧ itemType = "userMessage" then none
  else
    (projectBody python method phase event.params event.item itemType).map fun (kind, title, detail) =>
      { index := index + 1
        phase
        kind
        title
        detail
        method
        truncated := (Fields.get event "truncated").any Json.truthy }

/-- `projected_timeline`: the shown events, numbered again. -/
def projectedTimeline (events : List Event) : List TimelineEntry :=
  let projected := events.zipIdx.filterMap fun entry => projectEvent python entry.1 entry.2
  (projected.zipIdx 1).map fun entry => { entry.1 with index := entry.2 }

/-- `_string(event.get("phase"))`, the phase that the trace projection reads. -/
def explicitPhase (event : Event) : String :=
  ((Fields.get event "phase").bind Json.asText).getD ""

/-! ### Runs of a phase program -/

theorem stageEvent_countable (title detail : String) : (stageEvent title detail).Countable := by
  exact nofun

/-- The calls of `session.event` that one exchange makes. -/
def Interaction.recordings : Interaction → List Recording
  | .stage label title detail => [⟨label, stageEvent title detail, stageEvent_countable _ _⟩]
  | .turn taken =>
    taken.reply.events.attach.map fun event =>
      ⟨taken.label, event.1, taken.reply.countable event.1 event.2⟩
  | .checkpoint _ _ => []

/-- The events of a run are those that its recordings keep. -/
theorem sessionEvents_eq_keptEvents (log : List Interaction) :
    log.flatMap (sessionEvents python) = keptEvents python (log.flatMap recordings) := by
  induction log with
  | nil => rfl
  | cons exchange _ ih =>
    rw [flatMap_cons, flatMap_cons, keptEvents, map_append, ih]
    congr 1
    cases exchange with
    | stage => rfl
    | turn taken =>
      simp only [sessionEvents, recordings, map_map]
      exact (attach_map_val (l := taken.reply.events) (f := sessionEvent python taken.label)).symm
    | checkpoint => rfl

end WeaveCodex.ControlPlane
