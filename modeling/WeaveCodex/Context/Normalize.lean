/-
Purpose: The pass that pairs the calls of a history with their outputs before it is sent: it
  adds what is missing, removes what has no call and strips contents the model cannot read;
  and the removal of the oldest item together with its counterpart.
Trusted boundary: translation of `core/src/context_manager/normalize.rs` and of
  `normalize_history` and `remove_first_item` in `history.rs`; `error_or_panic` logs, as it does
  in a release build; fields that no modelled function reads are one value, and the derived ids
  of synthetic outputs are a function of their texts
-/
import WeaveCodex.Rollout.History

namespace WeaveCodex.Context.Normalize

open Rollout (ContentItem)

universe u

/-! ### Items -/

inductive FunctionCallOutputContentItem where
  | inputText (text : String)
  | inputImage (imageUrl : String) (detail : Option String)
  | inputAudio (audioUrl : String)
  | encryptedContent (encryptedContent : String)
deriving DecidableEq, Repr

inductive FunctionCallOutputBody where
  | text (text : String)
  | contentItems (items : List FunctionCallOutputContentItem)
deriving DecidableEq, Repr

structure FunctionCallOutputPayload where
  body : FunctionCallOutputBody
  success : Option Bool
deriving DecidableEq, Repr

def FunctionCallOutputPayload.fromText (text : String) : FunctionCallOutputPayload :=
  { body := .text text, success := none }

/-- The items of a history, with the fields that the passes read; `body` stands for the
others. -/
inductive ResponseItem (Json : Type u) where
  | message (content : List ContentItem) (body : Json)
  | localShellCall (id : Option String) (callId : Option String) (body : Json)
  | functionCall (id : Option String) (callId : String) (body : Json)
  | toolSearchCall (id : Option String) (callId : Option String) (body : Json)
  | functionCallOutput (id : Option String) (callId : String)
      (output : FunctionCallOutputPayload) (metadata : Option Json)
  | customToolCall (id : Option String) (callId : String) (body : Json)
  | customToolCallOutput (id : Option String) (callId : String) (name : Option String)
      (output : FunctionCallOutputPayload) (metadata : Option Json)
  | toolSearchOutput (id : Option String) (callId : Option String) (status execution : String)
      (tools : List Json) (metadata : Option Json)
  | imageGenerationCall (result : String) (body : Json)
  | other (body : Json)
deriving DecidableEq, Repr

structure ResponseItemEnvelope (Json : Type u) where
  item : ResponseItem Json
  metadata : Option Json := none
deriving DecidableEq, Repr

/-- The kinds of calls; a local shell call is answered by the output of a function call. -/
inductive CallKind where
  | function | customTool | toolSearch
deriving DecidableEq, Repr

variable {Json : Type u}

namespace ResponseItem

/-- The kind and the id of a call. -/
def callOf : ResponseItem Json → Option (CallKind × String)
  | .functionCall _ callId _ | .localShellCall _ (some callId) _ => some (.function, callId)
  | .toolSearchCall _ (some callId) _ => some (.toolSearch, callId)
  | .customToolCall _ callId _ => some (.customTool, callId)
  | _ => none

/-- The kind and the id of the call that an output answers. -/
def outputOf : ResponseItem Json → Option (CallKind × String)
  | .functionCallOutput _ callId _ _ => some (.function, callId)
  | .customToolCallOutput _ callId _ _ _ => some (.customTool, callId)
  | .toolSearchOutput _ (some callId) _ _ _ _ => some (.toolSearch, callId)
  | _ => none

/-- The output of a search that the server ran needs no call. -/
def isServerOutput : ResponseItem Json → Bool
  | .toolSearchOutput _ _ _ execution _ _ => execution = "server"
  | _ => false

end ResponseItem

inductive InputModality where
  | text | image | audio
deriving DecidableEq, Repr

/-! ### Missing outputs -/

/-- How a stable id is derived from a kind and a name. -/
abbrev DeriveId : Type := String → String → String

variable (deriveId : DeriveId) (inputModalities : List InputModality)
  (items : List (ResponseItemEnvelope Json))

def syntheticOutputId (lead : String) (itemId : Option String) : Option String :=
  (itemId.filter (· ≠ "")).map fun sourceId => deriveId lead (lead ++ ":" ++ sourceId)

/-- The ids that outputs of a kind have. -/
def outputIds (kind : CallKind) (items : List (ResponseItemEnvelope Json)) : List String :=
  items.filterMap fun envelope =>
    match envelope.item.outputOf with
    | some (outputKind, callId) => if outputKind = kind then some callId else none
    | none => none

/-- The output that is put after a call, if no output has its id. -/
def missingOutput : ResponseItem Json → Option (ResponseItem Json)
  | .functionCall id callId _ =>
    if callId ∈ outputIds .function items then none
    else some (.functionCallOutput (syntheticOutputId deriveId "fco" id) callId
      (.fromText "aborted") none)
  | .toolSearchCall id (some callId) _ =>
    if callId ∈ outputIds .toolSearch items then none
    else some (.toolSearchOutput (syntheticOutputId deriveId "tso" id) (some callId) "completed"
      "client" [] none)
  | .customToolCall id callId _ =>
    if callId ∈ outputIds .customTool items then none
    else some (.customToolCallOutput (syntheticOutputId deriveId "ctco" id) callId none
      (.fromText "aborted") none)
  | .localShellCall id (some callId) _ =>
    if callId ∈ outputIds .function items then none
    else some (.functionCallOutput (syntheticOutputId deriveId "fco" id) callId
      (.fromText "aborted") none)
  | _ => none

/-- The outputs to insert with the positions of their calls. -/
def missingOutputsToInsert : List (Nat × ResponseItemEnvelope Json) :=
  items.zipIdx.filterMap fun placed =>
    (missingOutput deriveId items placed.1.item).map fun output => (placed.2, { item := output })

/-- The outputs are inserted from the last to the first, so that no position moves. -/
def ensureCallOutputsPresent : List (ResponseItemEnvelope Json) :=
  (missingOutputsToInsert deriveId items).reverse.foldl
    (fun items insertion => items.insertIdx (insertion.1 + 1) insertion.2) items

/-! ### Outputs without a call -/

/-- The ids that calls of a kind have. -/
def callIds (kind : CallKind) (items : List (ResponseItemEnvelope Json)) : List String :=
  items.filterMap fun envelope =>
    match envelope.item.callOf with
    | some (callKind, callId) => if callKind = kind then some callId else none
    | none => none

def isOrphan : ResponseItem Json → Bool
  | .functionCallOutput _ callId _ _ => callId ∉ callIds .function items
  | .customToolCallOutput _ callId _ _ _ => callId ∉ callIds .customTool items
  | .toolSearchOutput _ (some callId) _ execution _ _ =>
    execution ≠ "server" && callId ∉ callIds .toolSearch items
  | _ => false

/-- `retain` beside an iterator over the positions that go. -/
def retainExcept {α : Type u} : List Nat → Nat → List α → List α
  | _, _, [] => []
  | positions, position, item :: items =>
    if positions.head? = some position then retainExcept positions.tail (position + 1) items
    else item :: retainExcept positions (position + 1) items

def orphanPositions : List Nat :=
  items.zipIdx.filterMap fun placed =>
    if isOrphan items placed.1.item then some placed.2 else none

def removeOrphanOutputs : List (ResponseItemEnvelope Json) :=
  if (orphanPositions items).isEmpty then items else retainExcept (orphanPositions items) 0 items

/-! ### Contents that a model cannot read -/

def imageContentOmittedPlaceholder : String :=
  "image content omitted because you do not support image input"

def audioContentOmittedPlaceholder : String :=
  "audio content omitted because you do not support audio input"

/-- The change of the content items of messages and of tool outputs. -/
def FunctionCallOutputPayload.mapContent
    (change : FunctionCallOutputContentItem → FunctionCallOutputContentItem)
    (output : FunctionCallOutputPayload) : FunctionCallOutputPayload :=
  match output.body with
  | .text _ => output
  | .contentItems items => { output with body := .contentItems (items.map change) }

def stripImageContent : ContentItem → ContentItem
  | .inputImage _ _ => .inputText imageContentOmittedPlaceholder
  | content => content

def stripImageOutput : FunctionCallOutputContentItem → FunctionCallOutputContentItem
  | .inputImage _ _ => .inputText imageContentOmittedPlaceholder
  | content => content

def stripImages : ResponseItem Json → ResponseItem Json
  | .message content body => .message (content.map stripImageContent) body
  | .functionCallOutput id callId output metadata =>
    .functionCallOutput id callId (output.mapContent stripImageOutput) metadata
  | .customToolCallOutput id callId name output metadata =>
    .customToolCallOutput id callId name (output.mapContent stripImageOutput) metadata
  | .imageGenerationCall _ body => .imageGenerationCall "" body
  | item => item

def stripImagesWhenUnsupported : List (ResponseItemEnvelope Json) :=
  if .image ∈ inputModalities then items
  else items.map fun envelope => { envelope with item := stripImages envelope.item }

def stripAudioContent : ContentItem → ContentItem
  | .inputAudio _ => .inputText audioContentOmittedPlaceholder
  | content => content

def stripAudioOutput : FunctionCallOutputContentItem → FunctionCallOutputContentItem
  | .inputAudio _ => .inputText audioContentOmittedPlaceholder
  | content => content

def stripAudio : ResponseItem Json → ResponseItem Json
  | .message content body => .message (content.map stripAudioContent) body
  | .functionCallOutput id callId output metadata =>
    .functionCallOutput id callId (output.mapContent stripAudioOutput) metadata
  | .customToolCallOutput id callId name output metadata =>
    .customToolCallOutput id callId name (output.mapContent stripAudioOutput) metadata
  | item => item

def stripAudioWhenUnsupported : List (ResponseItemEnvelope Json) :=
  if .audio ∈ inputModalities then items
  else items.map fun envelope => { envelope with item := stripAudio envelope.item }

def normalizeHistory : List (ResponseItemEnvelope Json) :=
  let items := ensureCallOutputsPresent deriveId items
  let items := removeOrphanOutputs items
  let items := stripImagesWhenUnsupported inputModalities items
  stripAudioWhenUnsupported inputModalities items

/-! ### Removing the oldest item -/

/-- `remove_first_matching`. -/
def removeFirstMatching (predicate : ResponseItem Json → Bool) : List (ResponseItemEnvelope Json) :=
  items.eraseP fun envelope => predicate envelope.item

def isFunctionCall (callId : String) : ResponseItem Json → Bool
  | .functionCall _ existing _ => existing = callId
  | _ => false

def isLocalShellCall (callId : String) : ResponseItem Json → Bool
  | .localShellCall _ (some existing) _ => existing = callId
  | _ => false

def removeCorrespondingFor : ResponseItem Json → List (ResponseItemEnvelope Json)
  | .functionCall _ callId _ =>
    removeFirstMatching items fun item => item.outputOf = some (.function, callId)
  | .functionCallOutput _ callId _ _ =>
    if items.any fun envelope => isFunctionCall callId envelope.item then
      removeFirstMatching items (isFunctionCall callId)
    else removeFirstMatching items (isLocalShellCall callId)
  | .toolSearchCall _ (some callId) _ =>
    removeFirstMatching items fun item => item.outputOf = some (.toolSearch, callId)
  | .toolSearchOutput _ (some callId) _ _ _ _ =>
    removeFirstMatching items fun item => item.callOf = some (.toolSearch, callId)
  | .customToolCall _ callId _ =>
    removeFirstMatching items fun item => item.outputOf = some (.customTool, callId)
  | .customToolCallOutput _ callId _ _ _ =>
    removeFirstMatching items fun item => item.callOf = some (.customTool, callId)
  | .localShellCall _ (some callId) _ =>
    removeFirstMatching items fun item => item.outputOf = some (.function, callId)
  | _ => items

/-- The items of a context manager and the baseline that goes when one is removed. -/
structure History (Json : Type u) where
  items : List (ResponseItemEnvelope Json)
  worldStateBaseline : Option Json

def removeFirstItem (history : History Json) : History Json :=
  match history.items with
  | [] => history
  | removed :: items =>
    { items := removeCorrespondingFor items removed.item, worldStateBaseline := none }

end WeaveCodex.Context.Normalize
