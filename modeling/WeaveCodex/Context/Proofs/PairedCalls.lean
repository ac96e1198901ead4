/-
Purpose: After the normalising pass every call has an output and every output a call; the
  pass keeps the other items in their order and does nothing the second time; and removing
  the oldest item keeps a history paired in which every id is used once.
-/
import WeaveCodex.Context.Normalize

namespace WeaveCodex.Context.Normalize

universe u

open ResponseItem List

variable {Json : Type u} {deriveId : DeriveId} {items : List (ResponseItemEnvelope Json)}
  {kind : CallKind} {callId : String}

/-! ### Calls and outputs of a history -/

/-- A call of the kind has the id. -/
def HasCall (items : List (ResponseItemEnvelope Json)) (kind : CallKind) (callId : String) :
    Prop :=
  ∃ envelope ∈ items, envelope.item.callOf = some (kind, callId)

/-- An output of the kind has the id. -/
def HasOutput (items : List (ResponseItemEnvelope Json)) (kind : CallKind) (callId : String) :
    Prop :=
  ∃ envelope ∈ items, envelope.item.outputOf = some (kind, callId)

/-- Every call has an output of its kind, and every output a call, unless a server made
it. -/
structure Paired (items : List (ResponseItemEnvelope Json)) : Prop where
  calls : ∀ envelope ∈ items, ∀ kind callId, envelope.item.callOf = some (kind, callId) →
    HasOutput items kind callId
  outputs : ∀ envelope ∈ items, ∀ kind callId, envelope.item.outputOf = some (kind, callId) →
    envelope.item.isServerOutput = false → HasCall items kind callId

/-- Of every kind an id is used by one call and by one output at most. -/
structure UsedOnce (items : List (ResponseItemEnvelope Json)) : Prop where
  calls : ∀ kind callId, items.countP (fun envelope => envelope.item.callOf = some (kind, callId)) ≤ 1
  outputs : ∀ kind callId, items.countP
    (fun envelope => envelope.item.outputOf = some (kind, callId)) ≤ 1

theorem mem_idsOf {idOf : ResponseItem Json → Option (CallKind × String)} :
    callId ∈ items.filterMap (fun envelope =>
        match idOf envelope.item with
        | some (found, callId) => if found = kind then some callId else none
        | none => none) ↔
      ∃ envelope ∈ items, idOf envelope.item = some (kind, callId) := by
  rw [mem_filterMap]
  refine exists_congr fun envelope => and_congr_right fun _ => ?_
  cases idOf envelope.item with
  | none => simp
  | some found => simp [Prod.ext_iff]

theorem mem_outputIds : callId ∈ outputIds kind items ↔ HasOutput items kind callId :=
  mem_idsOf

theorem mem_callIds : callId ∈ callIds kind items ↔ HasCall items kind callId :=
  mem_idsOf

variable {item : ResponseItem Json}

/-- A call is not an output. -/
theorem not_call_and_output {call output : CallKind × String} (isCall : item.callOf = some call) :
    item.outputOf ≠ some output := by
  intro isOutput
  cases item <;> first | (cases isOutput; done) | cases isCall

/-! ### What the pass adds -/

/-- An output is missing for a call whose id no output has, and it has that id. -/
theorem missingOutput_eq_some {item output : ResponseItem Json}
    (missing : missingOutput deriveId items item = some output) :
    ∃ kind callId, item.callOf = some (kind, callId) ∧ ¬ HasOutput items kind callId ∧
      output.outputOf = some (kind, callId) ∧ output.isServerOutput = false := by
  cases item with
  | functionCall _ callId | customToolCall _ callId =>
    rw [missingOutput] at missing
    split at missing
    · cases missing
    · rename_i absent
      cases missing
      exact ⟨_, callId, rfl, mem_outputIds.not.mp absent, rfl, rfl⟩
  | localShellCall _ callId | toolSearchCall _ callId =>
    cases callId with
    | none => cases missing
    | some callId =>
      rw [missingOutput] at missing
      split at missing
      · cases missing
      · rename_i absent
        cases missing
        exact ⟨_, callId, rfl, mem_outputIds.not.mp absent, rfl, rfl⟩
  | _ => cases missing

theorem missingOutput_eq_none_iff : missingOutput deriveId items item = none ↔
    ∀ kind callId, item.callOf = some (kind, callId) → HasOutput items kind callId := by
  simp only [← mem_outputIds]
  cases item with
  | functionCall | customToolCall => simp [missingOutput, callOf]
  | localShellCall _ existing | toolSearchCall _ existing =>
    cases existing <;> simp [missingOutput, callOf]
  | _ => simp [missingOutput, callOf]

/-- The missing output of an item, in an envelope. -/
def addedAfter (deriveId : DeriveId) (items : List (ResponseItemEnvelope Json))
    (envelope : ResponseItemEnvelope Json) : Option (ResponseItemEnvelope Json) :=
  (missingOutput deriveId items envelope.item).map fun output => { item := output }

/-- The items with what is missing after each. -/
def completed (deriveId : DeriveId) (items : List (ResponseItemEnvelope Json)) :
    List (ResponseItemEnvelope Json) :=
  items.flatMap fun envelope => envelope :: (addedAfter deriveId items envelope).toList

variable {α : Type u} {envelope call : ResponseItemEnvelope Json}

theorem insertIdx_length_append (front back : List α) (item : α) :
    (front ++ back).insertIdx front.length item = front ++ item :: back := by
  induction front with
  | nil => rfl
  | cons _ _ ih =>
    rw [cons_append, length_cons, insertIdx_succ_cons, ih, cons_append]

/-- Inserting from the last position to the first puts every item after its own. -/
theorem foldl_insertIdx (added : α → Option α) (front items : List α) :
    ((items.zipIdx front.length).filterMap fun placed =>
        (added placed.1).map fun output => (placed.2, output)).reverse.foldl
      (fun items insertion => items.insertIdx (insertion.1 + 1) insertion.2) (front ++ items) =
      front ++ items.flatMap fun item => item :: (added item).toList := by
  induction items generalizing front with
  | nil => simp
  | cons item _ ih =>
    have rest := ih (front ++ [item])
    rw [length_append, length_singleton, append_assoc, singleton_append] at rest
    rw [zipIdx_cons]
    cases isAdded : added item with
    | none =>
      rw [filterMap_cons_none (by simp [isAdded]), rest, flatMap_cons, isAdded]
      simp
    | some output =>
      have place : front.length + 1 = (front ++ [item]).length := by simp
      rw [filterMap_cons_some (b := (front.length, output)) (by simp [isAdded]),
        reverse_cons, foldl_append, rest, foldl_cons, foldl_nil,
        flatMap_cons, isAdded, place, insertIdx_length_append]
      simp

theorem ensureCallOutputsPresent_eq (items : List (ResponseItemEnvelope Json)) :
    ensureCallOutputsPresent deriveId items = completed deriveId items := by
  have inserted := foldl_insertIdx (addedAfter deriveId items) [] items
  simp only [nil_append, length_nil, addedAfter, Option.map_map] at inserted
  exact inserted

/-! ### What the pass removes -/

theorem isOrphan_eq_false_iff : isOrphan items item = false ↔ ∀ kind callId,
    item.outputOf = some (kind, callId) → item.isServerOutput = false → HasCall items kind callId := by
  simp only [← mem_callIds]
  cases item with
  | functionCallOutput | customToolCallOutput => simp [isOrphan, outputOf, isServerOutput]
  | toolSearchOutput _ callId =>
    cases callId <;> simp [isOrphan, outputOf, isServerOutput]
  | _ => simp [isOrphan, outputOf]

/-- Removing the listed positions removes the items that are to go. -/
theorem retainExcept_eq (goes : α → Bool) (position : Nat) (items : List α) :
    retainExcept ((items.zipIdx position).filterMap fun placed =>
        if goes placed.1 then some placed.2 else none) position items =
      items.filter fun item => !goes item := by
  induction items generalizing position with
  | nil => rfl
  | cons item items ih =>
    rw [zipIdx_cons]
    cases isGone : goes item with
    | true =>
      rw [filter_cons_of_neg (by simp [isGone]),
        filterMap_cons_some (b := position) (by simp [isGone]), retainExcept,
        head?_cons, if_pos rfl, tail_cons, ih]
    | false =>
      -- The next position that goes comes later.
      have later : ((items.zipIdx (position + 1)).filterMap fun placed =>
          if goes placed.1 then some placed.2 else none).head? ≠ some position := by
        intro found
        obtain ⟨_, inside, isPlace⟩ :=
          mem_filterMap.mp (mem_of_mem_head? found)
        have bound := le_snd_of_mem_zipIdx inside
        split at isPlace
        · rw [Option.some.inj isPlace] at bound
          omega
        · cases isPlace
      rw [filter_cons_of_pos (by simp [isGone]),
        filterMap_cons_none (by simp [isGone]), retainExcept, if_neg later,
        ih]

theorem removeOrphanOutputs_eq (items : List (ResponseItemEnvelope Json)) :
    removeOrphanOutputs items = items.filter fun envelope => !isOrphan items envelope.item := by
  have retained := retainExcept_eq
    (fun envelope : ResponseItemEnvelope Json => isOrphan items envelope.item) 0 items
  rw [removeOrphanOutputs]
  split
  · rename_i empty
    have all := retainExcept_eq (fun _ : ResponseItemEnvelope Json => false) 0 items
    rw [List.isEmpty_iff, orphanPositions] at empty
    rw [empty] at retained
    simpa [← retained] using all.symm
  · exact retained

/-! ### The completed history -/

theorem mem_completed : envelope ∈ completed deriveId items ↔ envelope ∈ items ∨
    ∃ call ∈ items, addedAfter deriveId items call = some envelope := by
  simp only [completed, mem_flatMap, mem_cons, Option.mem_toList]
  constructor
  · rintro ⟨call, mem, here | added⟩
    · exact .inl (here ▸ mem)
    · exact .inr ⟨call, mem, added⟩
  · rintro (mem | ⟨call, mem, added⟩)
    · exact ⟨envelope, mem, .inl rfl⟩
    · exact ⟨call, mem, .inr added⟩

theorem addedAfter_eq_some (added : addedAfter deriveId items call = some envelope) :
    ∃ kind callId, call.item.callOf = some (kind, callId) ∧ ¬ HasOutput items kind callId ∧
      envelope.item.outputOf = some (kind, callId) ∧ envelope.item.isServerOutput = false := by
  obtain ⟨_, missing, rfl⟩ := Option.map_eq_some_iff.mp added
  exact missingOutput_eq_some missing

/-- Only outputs are added. -/
theorem hasCall_completed : HasCall (completed deriveId items) kind callId ↔
    HasCall items kind callId := by
  constructor
  · rintro ⟨envelope, mem, isCall⟩
    rcases mem_completed.mp mem with kept | ⟨_, _, added⟩
    · exact ⟨envelope, kept, isCall⟩
    · obtain ⟨_, _, _, _, isOutput, _⟩ := addedAfter_eq_some added
      exact absurd isOutput (not_call_and_output isCall)
  · rintro ⟨envelope, mem, isCall⟩
    exact ⟨envelope, mem_completed.mpr (.inl mem), isCall⟩

/-- Every call is answered. -/
theorem hasOutput_completed (deriveId : DeriveId) (hasCall : HasCall items kind callId) :
    HasOutput (completed deriveId items) kind callId := by
  obtain ⟨call, mem, isCall⟩ := hasCall
  cases missing : missingOutput deriveId items call.item with
  | none =>
    obtain ⟨output, outputMem, isOutput⟩ := missingOutput_eq_none_iff.mp missing kind callId isCall
    exact ⟨output, mem_completed.mpr (.inl outputMem), isOutput⟩
  | some output =>
    obtain ⟨_, _, sameCall, _, isOutput, _⟩ := missingOutput_eq_some missing
    cases isCall.symm.trans sameCall
    exact ⟨_, mem_completed.mpr (.inr ⟨call, mem, by rw [addedAfter, missing, Option.map_some]⟩), isOutput⟩

theorem isOrphan_completed (item : ResponseItem Json) :
    isOrphan (completed deriveId items) item = isOrphan items item := by
  rw [← Bool.not_inj_iff, Bool.eq_iff_iff, Bool.not_eq_true', Bool.not_eq_true', isOrphan_eq_false_iff,
    isOrphan_eq_false_iff]
  simp only [hasCall_completed]

theorem isOrphan_of_callOf {call : CallKind × String} (isCall : item.callOf = some call) :
    isOrphan items item = false :=
  isOrphan_eq_false_iff.mpr fun _ _ isOutput => absurd isOutput (not_call_and_output isCall)

theorem isOrphan_of_outputOf (isOutput : item.outputOf = some (kind, callId))
    (hasCall : HasCall items kind callId) : isOrphan items item = false := by
  refine isOrphan_eq_false_iff.mpr fun _ _ alsoOutput _ => ?_
  cases isOutput.symm.trans alsoOutput
  exact hasCall

/-- The items that stay: all but the outputs without a call. -/
def keptItems (items : List (ResponseItemEnvelope Json)) : List (ResponseItemEnvelope Json) :=
  items.filter fun envelope => !isOrphan items envelope.item

/-- Items are filtered with what is added after them, if this stays with its item. -/
theorem filter_flatMap_added (keep : α → Bool) (added : α → Option α) {items : List α}
    (stays : ∀ item ∈ items, ∀ output, added item = some output → keep item = true ∧ keep output = true) :
    (items.flatMap fun item => item :: (added item).toList).filter keep =
      (items.filter keep).flatMap fun item => item :: (added item).toList := by
  induction items with
  | nil => rfl
  | cons item _ ih =>
    obtain ⟨here, later⟩ := forall_mem_cons.mp stays
    rw [flatMap_cons, filter_append, ih later]
    cases isAdded : added item with
    | none => cases kept : keep item <;> simp [kept, isAdded]
    | some output => simp [here output isAdded, isAdded]

/-- The two passes together: the items that stay, and after each call the output it
misses. -/
theorem removeOrphanOutputs_ensure (items : List (ResponseItemEnvelope Json)) :
    removeOrphanOutputs (ensureCallOutputsPresent deriveId items) =
      (keptItems items).flatMap fun envelope =>
        envelope :: (addedAfter deriveId items envelope).toList := by
  rw [removeOrphanOutputs_eq, ensureCallOutputsPresent_eq]
  simp only [isOrphan_completed]
  refine filter_flatMap_added _ _ fun call mem output added => ?_
  obtain ⟨_, _, isCall, _, isOutput, _⟩ := addedAfter_eq_some added
  rw [isOrphan_of_callOf isCall, isOrphan_of_outputOf isOutput ⟨call, mem, isCall⟩]
  exact ⟨rfl, rfl⟩

/-- After both passes the history is paired. -/
theorem paired_completed (items : List (ResponseItemEnvelope Json)) :
    Paired (removeOrphanOutputs (ensureCallOutputsPresent deriveId items)) := by
  have mem_iff (envelope : ResponseItemEnvelope Json) :
      envelope ∈ removeOrphanOutputs (ensureCallOutputsPresent deriveId items) ↔
        envelope ∈ completed deriveId items ∧ isOrphan items envelope.item = false := by
    rw [removeOrphanOutputs_eq, ensureCallOutputsPresent_eq, mem_filter, isOrphan_completed,
      Bool.not_eq_true']
  constructor
  · intro envelope mem kind callId isCall
    have hasCall := hasCall_completed.mp ⟨envelope, ((mem_iff envelope).mp mem).1, isCall⟩
    obtain ⟨output, outputMem, isOutput⟩ := hasOutput_completed deriveId hasCall
    exact ⟨output, (mem_iff output).mpr ⟨outputMem, isOrphan_of_outputOf isOutput hasCall⟩, isOutput⟩
  · intro envelope mem kind callId isOutput notServer
    have hasCall := isOrphan_eq_false_iff.mp ((mem_iff envelope).mp mem).2 kind callId isOutput notServer
    obtain ⟨call, callMem, isCall⟩ := hasCall_completed.mpr hasCall
    exact ⟨call, (mem_iff call).mpr ⟨callMem, isOrphan_of_callOf isCall⟩, isCall⟩

/-- A paired history is left as it is. -/
theorem ensure_of_paired (paired : Paired items) : ensureCallOutputsPresent deriveId items = items := by
  rw [ensureCallOutputsPresent_eq, completed]
  have nothing : ∀ envelope ∈ items, addedAfter deriveId items envelope = none := by
    intro envelope mem
    rw [addedAfter, Option.map_eq_none_iff, missingOutput_eq_none_iff]
    exact paired.calls envelope mem
  rw [flatMap_congr fun envelope mem => by rw [nothing envelope mem]]
  exact flatMap_singleton' items

theorem removeOrphanOutputs_of_paired (paired : Paired items) : removeOrphanOutputs items = items := by
  rw [removeOrphanOutputs_eq, filter_eq_self]
  intro envelope mem
  rw [Bool.not_eq_true', isOrphan_eq_false_iff]
  exact paired.outputs envelope mem

/-! ### Stripped contents -/

/-- What the model cannot read is taken out of an item. -/
def strip (inputModalities : List InputModality) (item : ResponseItem Json) : ResponseItem Json :=
  let item := if .image ∈ inputModalities then item else stripImages item
  if .audio ∈ inputModalities then item else stripAudio item

def stripEnvelope (inputModalities : List InputModality) (envelope : ResponseItemEnvelope Json) :
    ResponseItemEnvelope Json :=
  { envelope with item := strip inputModalities envelope.item }

variable (inputModalities : List InputModality)

theorem strip_eq (items : List (ResponseItemEnvelope Json)) :
    stripAudioWhenUnsupported inputModalities (stripImagesWhenUnsupported inputModalities items) =
      items.map (stripEnvelope inputModalities) := by
  rw [stripAudioWhenUnsupported, stripImagesWhenUnsupported]
  unfold stripEnvelope strip
  split <;> split <;> simp

theorem roles_strip (item : ResponseItem Json) : (strip inputModalities item).callOf = item.callOf ∧
    (strip inputModalities item).outputOf = item.outputOf ∧
      (strip inputModalities item).isServerOutput = item.isServerOutput := by
  rw [strip]
  split <;> split <;> cases item <;> exact ⟨rfl, rfl, rfl⟩

theorem paired_map_strip (paired : Paired items) :
    Paired (items.map (stripEnvelope inputModalities)) := by
  have same (envelope : ResponseItemEnvelope Json) := roles_strip inputModalities envelope.item
  constructor
  · intro envelope mem kind callId isCall
    obtain ⟨original, inside, rfl⟩ := mem_map.mp mem
    obtain ⟨output, outputInside, isOutput⟩ :=
      paired.calls original inside kind callId ((same original).1.symm.trans isCall)
    exact ⟨_, mem_map_of_mem outputInside, (same output).2.1.trans isOutput⟩
  · intro envelope mem kind callId isOutput notServer
    obtain ⟨original, inside, rfl⟩ := mem_map.mp mem
    obtain ⟨call, callInside, isCall⟩ := paired.outputs original inside kind callId
      ((same original).2.1.symm.trans isOutput) ((same original).2.2.symm.trans notServer)
    exact ⟨_, mem_map_of_mem callInside, (same call).1.trans isCall⟩

theorem mapContent_comp (first second : FunctionCallOutputContentItem → FunctionCallOutputContentItem)
    (output : FunctionCallOutputPayload) :
    (output.mapContent first).mapContent second = output.mapContent (second ∘ first) := by
  obtain ⟨body, _⟩ := output
  cases body <;> simp [FunctionCallOutputPayload.mapContent]

/-- The two changes of a content item, and that they do nothing the second time. -/
theorem stripImageContent_idempotent (content : Rollout.ContentItem) :
    stripImageContent (stripImageContent content) = stripImageContent content := by
  cases content <;> rfl

theorem stripImageOutput_idempotent : stripImageOutput ∘ stripImageOutput = stripImageOutput := by
  funext content
  cases content <;> rfl

theorem stripAudioContent_idempotent (content : Rollout.ContentItem) :
    stripAudioContent (stripAudioContent content) = stripAudioContent content := by
  cases content <;> rfl

theorem stripAudioOutput_idempotent : stripAudioOutput ∘ stripAudioOutput = stripAudioOutput := by
  funext content
  cases content <;> rfl

section

variable (item : ResponseItem Json)

theorem stripImages_idempotent : stripImages (stripImages item) = stripImages item := by
  cases item <;> simp [stripImages, mapContent_comp, stripImageOutput_idempotent,
    stripImageContent_idempotent]

theorem stripAudio_idempotent : stripAudio (stripAudio item) = stripAudio item := by
  cases item <;> simp [stripAudio, mapContent_comp, stripAudioOutput_idempotent,
    stripAudioContent_idempotent]

theorem stripImages_stripAudio : stripImages (stripAudio item) = stripAudio (stripImages item) := by
  have contents : ∀ content, stripImageContent (stripAudioContent content) =
      stripAudioContent (stripImageContent content) := by
    intro content
    cases content <;> rfl
  have outputs : stripImageOutput ∘ stripAudioOutput = stripAudioOutput ∘ stripImageOutput := by
    funext content
    cases content <;> rfl
  cases item <;> simp [stripImages, stripAudio, mapContent_comp, outputs, contents]

theorem strip_idempotent :
    strip inputModalities (strip inputModalities item) = strip inputModalities item := by
  unfold strip
  split <;> split <;>
    simp [stripImages_idempotent, stripAudio_idempotent, stripImages_stripAudio]

end

/-! ### The whole pass -/

theorem normalizeHistory_eq (items : List (ResponseItemEnvelope Json)) :
    normalizeHistory deriveId inputModalities items = ((keptItems items).flatMap fun envelope =>
        envelope :: (addedAfter deriveId items envelope).toList).map (stripEnvelope inputModalities) := by
  rw [normalizeHistory, strip_eq, removeOrphanOutputs_ensure]

theorem paired_normalizeHistory (deriveId : DeriveId) (inputModalities : List InputModality)
    (items : List (ResponseItemEnvelope Json)) :
    Paired (normalizeHistory deriveId inputModalities items) := by
  rw [normalizeHistory, strip_eq]
  exact paired_map_strip inputModalities (paired_completed items)

theorem normalizeHistory_idempotent (items : List (ResponseItemEnvelope Json)) :
    normalizeHistory deriveId inputModalities (normalizeHistory deriveId inputModalities items) =
      normalizeHistory deriveId inputModalities items := by
  have paired := paired_normalizeHistory deriveId inputModalities items
  rw [normalizeHistory, ensure_of_paired paired, removeOrphanOutputs_of_paired paired, strip_eq]
  rw [normalizeHistory_eq, map_map]
  apply map_congr_left
  intro envelope _
  simp [stripEnvelope, strip_idempotent]

/-! ### Removing the oldest item -/

/-- If one item at most satisfies one of two predicates, it goes, whichever is tried first. -/
theorem eraseP_or_eq_filter (first second : α → Bool) {list : List α}
    (once : list.countP (fun item => first item || second item) ≤ 1) :
    (if list.any first then list.eraseP first else list.eraseP second) =
      list.filter fun item => !(first item || second item) := by
  induction list with
  | nil => rfl
  | cons item list ih =>
    cases found : first item || second item with
    | false =>
      rw [countP_cons_of_neg (by simp [found])] at once
      obtain ⟨notFirst, notSecond⟩ := Bool.or_eq_false_iff.mp found
      rw [filter_cons_of_pos (by simp [found]), ← ih once, any_cons, notFirst, Bool.false_or,
        eraseP_cons_of_neg (by simp [notFirst]), eraseP_cons_of_neg (by simp [notSecond])]
      split <;> rfl
    | true =>
      rw [countP_cons_of_pos (by simp [found])] at once
      have none : list.countP (fun item => first item || second item) = 0 := by omega
      simp only [countP_eq_zero, Bool.or_eq_true, not_or, Bool.not_eq_true] at none
      have others : list.filter (fun item => !(first item || second item)) = list :=
        filter_eq_self.mpr fun other mem => by simp [none other mem]
      have noFirst : list.any first = false := by simpa using fun other mem => (none other mem).1
      rw [filter_cons_of_neg (by simp [found]), others]
      cases isFirst : first item with
      | true => simp [isFirst]
      | false =>
        have isSecond : second item = true := by simpa [isFirst] using found
        simp [isFirst, noFirst, isSecond]

theorem eraseP_eq_filter {predicate : α → Bool} {list : List α} (once : list.countP predicate ≤ 1) :
    list.eraseP predicate = list.filter fun item => !predicate item := by
  simpa using eraseP_or_eq_filter predicate predicate (by simpa using once)

/-- The counterpart of an item: the output of a call, the call of an output. -/
def isCounterpart (item other : ResponseItem Json) : Bool :=
  match item.callOf, item.outputOf with
  | some call, _ => other.outputOf = some call
  | none, some output => other.callOf = some output
  | none, none => false

theorem callOf_function_iff : item.callOf = some (.function, callId) ↔
    isFunctionCall callId item = true ∨ isLocalShellCall callId item = true := by
  cases item with
  | localShellCall _ existing | toolSearchCall _ existing =>
    cases existing <;> simp [callOf, isFunctionCall, isLocalShellCall]
  | _ => simp [callOf, isFunctionCall, isLocalShellCall]

variable {rest : List (ResponseItemEnvelope Json)}

/-- With one call of an id, the call is found among the functions or among the shells. -/
theorem removeFunctionCall_eq
    (once : rest.countP (fun envelope => envelope.item.callOf = some (.function, callId)) ≤ 1) :
    (if rest.any fun envelope => isFunctionCall callId envelope.item then
        removeFirstMatching rest (isFunctionCall callId)
      else removeFirstMatching rest (isLocalShellCall callId)) =
      rest.filter fun envelope => !decide (envelope.item.callOf = some (.function, callId)) := by
  have found (envelope : ResponseItemEnvelope Json) :
      decide (envelope.item.callOf = some (.function, callId)) =
        (isFunctionCall callId envelope.item || isLocalShellCall callId envelope.item) := by
    rw [Bool.eq_iff_iff, decide_eq_true_eq, callOf_function_iff, Bool.or_eq_true]
  simp only [found] at once ⊢
  exact eraseP_or_eq_filter _ _ once

theorem removeCorrespondingFor_eq (once : UsedOnce rest) (item : ResponseItem Json) :
    removeCorrespondingFor rest item =
      rest.filter fun envelope => !isCounterpart item envelope.item := by
  cases item with
  | functionCall _ callId | customToolCall _ callId => exact eraseP_eq_filter (once.outputs _ callId)
  | localShellCall _ callId | toolSearchCall _ callId =>
    cases callId with
    | none => simp [removeCorrespondingFor, isCounterpart, callOf, outputOf]
    | some callId => exact eraseP_eq_filter (once.outputs _ callId)
  | functionCallOutput _ callId =>
    exact removeFunctionCall_eq (once.calls .function callId)
  | customToolCallOutput _ callId =>
    exact eraseP_eq_filter (once.calls .customTool callId)
  | toolSearchOutput _ callId =>
    cases callId with
    | none => simp [removeCorrespondingFor, isCounterpart, callOf, outputOf]
    | some callId => exact eraseP_eq_filter (once.calls .toolSearch callId)
  | _ => simp [removeCorrespondingFor, isCounterpart, callOf, outputOf]

variable {first : ResponseItemEnvelope Json}

theorem UsedOnce.tail (once : UsedOnce (first :: rest)) : UsedOnce rest where
  calls kind callId := (List.Sublist.countP_le (sublist_cons_self first rest)).trans
    (once.calls kind callId)
  outputs kind callId := (List.Sublist.countP_le (sublist_cons_self first rest)).trans
    (once.outputs kind callId)

theorem isCounterpart_iff {other : ResponseItem Json} : isCounterpart item other = true ↔
    ∃ id, item.callOf = some id ∧ other.outputOf = some id ∨
      item.outputOf = some id ∧ other.callOf = some id := by
  rw [isCounterpart]
  split
  · rename_i isCall
    have notOutput (id : CallKind × String) : item.outputOf ≠ some id := not_call_and_output isCall
    simp [isCall, notOutput]
  · rename_i noCall isOutput
    simp [noCall, isOutput]
  · rename_i noCall noOutput
    simp [noCall, noOutput]

/-- What asks for an id finds its answer behind the first item, if that item and its counterpart
go.  Calls ask for outputs, and outputs for calls. -/
theorem answered_filter (asks answers : ResponseItem Json → Option (CallKind × String))
    (exclusive : ∀ item id id', asks item = some id → answers item ≠ some id')
    (goes : ∀ other, isCounterpart first.item other = true ↔
      ∃ id, asks first.item = some id ∧ answers other = some id ∨
        answers first.item = some id ∧ asks other = some id) {id : CallKind × String}
    (once : (first :: rest).countP (fun envelope => asks envelope.item = some id) ≤ 1)
    (answered : ∃ other ∈ first :: rest, answers other.item = some id)
    (mem : envelope ∈ rest.filter fun envelope => !isCounterpart first.item envelope.item)
    (isAsked : asks envelope.item = some id) :
    ∃ other ∈ rest.filter fun envelope => !isCounterpart first.item envelope.item,
      answers other.item = some id := by
  obtain ⟨inside, stays⟩ := mem_filter.mp mem
  rw [Bool.not_eq_true', ← Bool.not_eq_true, goes] at stays
  obtain ⟨other, otherMem, isAnswer⟩ := answered
  rcases mem_cons.mp otherMem with rfl | later
  · exact absurd ⟨id, .inr ⟨isAnswer, isAsked⟩⟩ stays
  refine ⟨other, mem_filter.mpr ⟨later, ?_⟩, isAnswer⟩
  rw [Bool.not_eq_true', ← Bool.not_eq_true, goes]
  rintro ⟨_, ⟨isFirst, same⟩ | ⟨_, alsoAsks⟩⟩
  · -- The first item would ask for the id as well.
    cases isAnswer.symm.trans same
    rw [countP_cons_of_pos (by simpa using isFirst)] at once
    have none : rest.countP (fun envelope => asks envelope.item = some id) = 0 := by omega
    exact countP_eq_zero.mp none envelope inside (decide_eq_true isAsked)
  · exact exclusive other.item _ _ alsoAsks isAnswer

/-- Without the first item and its counterpart a history is still paired. -/
theorem paired_removeFirst (paired : Paired (first :: rest)) (once : UsedOnce (first :: rest)) :
    Paired (rest.filter fun envelope => !isCounterpart first.item envelope.item) := by
  constructor
  · intro envelope mem kind callId isCall
    refine answered_filter callOf outputOf (fun _ _ _ => not_call_and_output) (fun _ => isCounterpart_iff)
      (once.calls kind callId) ?_ mem isCall
    exact paired.calls envelope (mem_cons_of_mem first (mem_filter.mp mem).1) kind callId isCall
  · intro envelope mem kind callId isOutput notServer
    refine answered_filter outputOf callOf (fun _ _ _ isOutput isCall => not_call_and_output isCall isOutput)
      (fun _ => isCounterpart_iff.trans (exists_congr fun _ => or_comm))
      (once.outputs kind callId) ?_ mem isOutput
    exact paired.outputs envelope (mem_cons_of_mem first (mem_filter.mp mem).1) kind callId isOutput
      notServer

/-- The pass pairs every history, keeps all items but the outputs without a call in their
order, puts what it adds after its call and does nothing the second time; and without its
oldest item a paired history in which ids are used once is paired again. -/
theorem normalizedHistory_paired (deriveId : DeriveId) (inputModalities : List InputModality) :
    (∀ items : List (ResponseItemEnvelope Json),
      Paired (normalizeHistory deriveId inputModalities items) ∧
      (∃ added : ResponseItemEnvelope Json → Option (ResponseItemEnvelope Json),
        normalizeHistory deriveId inputModalities items =
            ((keptItems items).flatMap fun envelope => envelope :: (added envelope).toList).map
              (stripEnvelope inputModalities) ∧
          ∀ envelope output, added envelope = some output →
            ∃ call, envelope.item.callOf = some call ∧ output.item.outputOf = some call ∧
              ¬ HasOutput items call.1 call.2) ∧
      normalizeHistory deriveId inputModalities (normalizeHistory deriveId inputModalities items) =
        normalizeHistory deriveId inputModalities items) ∧
      ∀ history : History Json, Paired history.items → UsedOnce history.items →
        Paired (removeFirstItem history).items := by
  constructor
  · intro items
    refine ⟨paired_normalizeHistory deriveId inputModalities items, ?_,
      normalizeHistory_idempotent inputModalities items⟩
    refine ⟨addedAfter deriveId items, normalizeHistory_eq inputModalities items, ?_⟩
    intro envelope output isAdded
    obtain ⟨kind, callId, isCall, noOutput, isOutput, _⟩ := addedAfter_eq_some isAdded
    exact ⟨(kind, callId), isCall, isOutput, noOutput⟩
  · intro history paired once
    rw [removeFirstItem]
    split
    · exact paired
    · rename_i isItems
      rw [isItems] at paired once
      rw [removeCorrespondingFor_eq once.tail]
      exact paired_removeFirst paired once

/-- A message after a call and its output. -/
def answeredCall : List (ResponseItemEnvelope Unit) :=
  [{ item := .functionCall none "call-1" () },
    { item := .functionCallOutput none "call-1" (.fromText "done") none },
    { item := .message [.inputText "next"] () }]

/-- The output goes with the call, and only the message is left. -/
theorem answeredCall_removed :
    Paired (removeFirstItem { items := answeredCall, worldStateBaseline := none }).items := by
  have paired : Paired answeredCall := by
    constructor
    · intro envelope member kind callId isCall
      simp only [answeredCall, mem_cons, not_mem_nil, or_false] at member
      rcases member with rfl | rfl | rfl <;> cases isCall
      exact ⟨_, mem_cons_of_mem _ mem_cons_self, rfl⟩
    · intro envelope member kind callId isOutput _
      simp only [answeredCall, mem_cons, not_mem_nil, or_false] at member
      rcases member with rfl | rfl | rfl <;> cases isOutput
      exact ⟨_, mem_cons_self, rfl⟩
  have once : UsedOnce answeredCall := by
    constructor
    all_goals
      intro kind callId
      simp only [answeredCall, callOf, outputOf, countP_cons, countP_nil, reduceCtorEq,
        decide_false, Bool.false_eq_true, if_false]
      split <;> omega
  exact (normalizedHistory_paired (fun lead name => lead ++ name) []).2 _ paired once

end WeaveCodex.Context.Normalize
