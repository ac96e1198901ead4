/-
Purpose: `parse_patch` against the streaming parser on the same text. The whole-text parser
  strips one carriage return from each line before the streaming parser strips another, and
  checks the first line, which the streaming parser does not reach in a patch of one line.
-/
import WeaveCodex.ApplyPatch.Proofs.ParserShape

namespace WeaveCodex.ApplyPatch

open Library LineStream LineParser StreamingPatchParser List Option

/-- Some line that the streaming parser keeps as text ends with two carriage returns. -/
def DoubledReturn (patch : String) : Prop :=
  ∃ before text after state,
    (LineStream.cut [] patch.toList).1 = before ++ (text ++ ['\r', '\r']) :: after ∧
      LineStream.handleAll LineParser.handleLine {} before = .ok state ∧
      state.keepsText (String.ofList text) = true

/-! ### Lines with one carriage return less -/

theorem stripCarriageReturn_returns (line : List Char) :
    ∃ tail, (∀ char ∈ tail, char = '\r') ∧ line = stripCarriageReturn line ++ tail := by
  rw [stripCarriageReturn]
  split
  · rename_i last
    obtain ⟨_, rfl⟩ := getLast?_eq_some_iff.mp last
    exact ⟨['\r'], by simp, by simp⟩
  · exact ⟨[], by simp, by simp⟩

theorem trim_stripCarriageReturn (line : List Char) :
    trim (String.ofList (stripCarriageReturn line)) = trim (String.ofList line) := by
  obtain ⟨_, returns, whole⟩ := stripCarriageReturn_returns line
  conv_rhs => rw [whole, trim_returns returns]

theorem stripCarriageReturn_concat (text : List Char) :
    stripCarriageReturn (text ++ ['\r']) = text := by
  simp [stripCarriageReturn]

theorem stripCarriageReturn_doubled (text : List Char) :
    stripCarriageReturn (text ++ ['\r', '\r']) = text ++ ['\r'] := by
  rw [show text ++ ['\r', '\r'] = (text ++ ['\r']) ++ ['\r'] by simp, stripCarriageReturn_concat]

/-- A line that ends with two carriage returns, or else stripping twice is stripping once. -/
theorem doubled_or_stripped (line : List Char) : (∃ text, line = text ++ ['\r', '\r']) ∨
    stripCarriageReturn (stripCarriageReturn line) = stripCarriageReturn line := by
  by_cases last : line.getLast? = some '\r'
  · obtain ⟨front, rfl⟩ := getLast?_eq_some_iff.mp last
    rw [stripCarriageReturn_concat]
    by_cases inner : front.getLast? = some '\r'
    · obtain ⟨text, rfl⟩ := getLast?_eq_some_iff.mp inner
      exact .inl ⟨text, by simp⟩
    · exact .inr (if_neg inner)
  · have kept : stripCarriageReturn line = line := if_neg last
    rw [kept, kept]
    exact .inr rfl

namespace LineParser

variable {parser alike final : LineParser}

/-- One line of the stream, and the line that the whole-text parser passes on. -/
theorem handleLine_alike (shapes : parser.shape = alike.shape) {line : List Char}
    (handled : parser.handleLine line = .ok final) :
    ∃ other, alike.handleLine (stripCarriageReturn line) = .ok other ∧
      final.shape = other.shape ∧ other.weight + parser.weight ≤ final.weight + alike.weight ∧
      ∀ text, line = text ++ ['\r', '\r'] → parser.keepsText (String.ofList text) = true →
        other.weight + parser.weight < final.weight + alike.weight := by
  obtain ⟨_, returns, whole⟩ := stripCarriageReturn_returns (stripCarriageReturn line)
  rw [handleLine, whole] at handled
  obtain ⟨other, processed, same, weights⟩ :=
    processLine_alike returns (numbered_alike shapes) handled
  change other.weight + parser.weight + _ ≤ final.weight + alike.weight at weights
  refine ⟨other, processed, same, by omega, ?_⟩
  rintro text rfl kept
  -- The text and the carriage return that is left of the two.
  rw [stripCarriageReturn_doubled, stripCarriageReturn_concat] at whole weights
  rw [← append_cancel_left whole] at weights
  have counted : keepsText { parser with lineNumber := parser.lineNumber + 1 }
      (String.ofList text) = true := kept
  rw [if_pos counted] at weights
  simp only [length_singleton] at weights
  omega

variable {lines : List (List Char)}

/-- A stream that goes through also goes through with one carriage return less on each
line, to hunks of the same shape that are lighter if a kept line had two. -/
theorem handleAll_alike (shapes : parser.shape = alike.shape)
    (handled : handleAll handleLine parser lines = .ok final) :
    ∃ other, handleAll handleLine alike (lines.map stripCarriageReturn) = .ok other ∧
      final.shape = other.shape ∧ other.weight + parser.weight ≤ final.weight + alike.weight ∧
      ∀ before text after state, lines = before ++ (text ++ ['\r', '\r']) :: after →
        handleAll handleLine parser before = .ok state →
        state.keepsText (String.ofList text) = true →
        other.weight + parser.weight < final.weight + alike.weight := by
  induction lines generalizing parser alike with
  | nil =>
    cases handled
    refine ⟨alike, rfl, shapes, by omega, ?_⟩
    intro before text after state nothing
    simp at nothing
  | cons _ _ ih =>
    obtain ⟨_, first, later⟩ := handleAll_cons_ok.mp handled
    obtain ⟨_, alikeFirst, sameMiddle, _, doubled⟩ :=
      handleLine_alike shapes first
    obtain ⟨other, alikeLater, same, _, doubledLater⟩ :=
      ih sameMiddle later
    refine ⟨other, ?_, same, by omega, ?_⟩
    · rw [map_cons, handleAll, alikeFirst]
      exact alikeLater
    intro before text after state split reached kept
    cases before with
    | nil =>
      cases split
      cases reached
      have := doubled text rfl kept
      omega
    | cons _ before =>
      cases split
      rw [handleAll, first] at reached
      have := doubledLater before text after state rfl reached kept
      omega

/-- Without a kept line that has two carriage returns, nothing is lost. -/
theorem handleAll_undoubled
    (handled : handleAll handleLine parser (lines.map stripCarriageReturn) = .ok final)
    (undoubled : ∀ before text after state, lines = before ++ (text ++ ['\r', '\r']) :: after →
      handleAll handleLine parser before = .ok state →
      state.keepsText (String.ofList text) = false) :
    handleAll handleLine parser lines = .ok final := by
  induction lines generalizing parser with
  | nil => exact handled
  | cons line lines ih =>
    rw [map_cons] at handled
    obtain ⟨middle, first, later⟩ := handleAll_cons_ok.mp handled
    have whole : parser.handleLine line = .ok middle := by
      rcases doubled_or_stripped line with ⟨text, rfl⟩ | stripped
      · have unkept : keepsText { parser with lineNumber := parser.lineNumber + 1 }
            (String.ofList text) = false := undoubled [] text lines parser rfl rfl
        have returns : ∀ char ∈ ['\r'], char = '\r' := by simp
        rw [handleLine, stripCarriageReturn_doubled, stripCarriageReturn_concat] at first
        rw [handleLine, stripCarriageReturn_doubled]
        rcases processLine_ok_iff.mp first with ⟨kept, _⟩ | marked
        · rw [kept] at unkept
          cases unkept
        · rw [← trim_returns returns, ← trimEnd_returns returns] at marked
          exact processLine_ok_iff.mpr (.inr marked)
      · rw [← first, handleLine, handleLine, stripped]
    rw [handleAll, whole]
    apply ih later
    intro before text after state split reached
    apply undoubled (line :: before) text after state (by rw [split, cons_append])
    rw [handleAll, whole]
    exact reached

/-! ### The last line -/

theorem mode_withText (line : String) : (parser.withText line).mode = parser.mode := by
  unfold withText
  split <;> rfl

/-- Only the end marker ends a patch. -/
theorem Headed.shown {trimmed : String} (headed : parser.Headed trimmed final)
    (unended : parser.mode ≠ .endedPatch) (ended : final.mode = .endedPatch) :
    trimmed = endPatchMarker := by
  cases headed with
  | environment => contradiction
  | ended shown => exact shown
  | _ => cases ended

theorem ended_processLine {line : String} (processed : parser.processLine line = .ok final)
    (ended : final.mode = .endedPatch) : trim line = endPatchMarker ∨ trim line = "" := by
  rcases processLine_ok_iff.mp processed with ⟨kept, rfl⟩ | marked
  · rw [mode_withText] at ended
    simp [keepsText, ended] at kept
  · cases marked with
    | began => cases ended
    | header _ unended handled =>
      have shown := (headed_of_handled handled).shown unended ended
      unfold headerText at shown
      split at shown
      · have starts : line.toList.head? = some '*' := head?_trimEnd (by rw [shown]; rfl)
        exact .inl ((trim_eq_trimEnd starts (by decide)).trans shown)
      · exact .inl shown
    | marker mode =>
      rw [show (parser.replaceLast _).mode = parser.mode from rfl, mode] at ended
      cases ended
    | ended _ blank => exact .inr blank

end LineParser

variable {last : List Char} {state : LineParser} {outcome : StreamOutcome} {patch : String}

/-- With the end marker in the last line, the stream is its completed lines and the check
of the last hunk. -/
theorem streamLines_ok_iff {lines : List (List Char)} (nonempty : last ≠ [])
    (ends : trim (String.ofList last) = endPatchMarker) :
    streamLines lines last = .ok outcome ↔ ∃ state, handleAll handleLine {} lines = .ok state ∧
        ensureUpdateHunkIsNotEmpty
          { state with lineNumber := state.lineNumber + 1 } endPatchMarker = .ok () ∧
        outcome = { hunks := state.hunks, environmentId := state.environmentId } := by
  rw [streamLines]
  cases handled : handleAll handleLine {} lines with
  | error => simp
  | ok state =>
    simp only [finish, finishLine, if_neg nonempty, ends]
    cases checked : ensureUpdateHunkIsNotEmpty
        { state with lineNumber := state.lineNumber + 1 } endPatchMarker with
    | error => simp [Except.map, checked]
    | ok => simp [Except.map, checked, eq_comm]

theorem begins_of_handled {first : List Char} {rest : List (List Char)}
    (handled : handleAll handleLine {} (first :: rest) = .ok state) :
    trim (String.ofList (stripCarriageReturn first)) = beginPatchMarker := by
  rw [handleAll] at handled
  by_contra other
  have refused : handleLine {} first = .error firstLineError := by
    simp only [handleLine, processLine, if_neg other]
  rw [refused] at handled
  cases handled

/-! ### The whole text -/

/-- A text without white space at its ends, if there is one, ends with something else. -/
theorem ends_visible (trimmed : trim patch = patch) (nonempty : patch ≠ "") :
    ∃ front char, patch.toList = front ++ [char] ∧ isWhitespace char = false := by
  have chars : patch.toList ≠ [] := by simpa using nonempty
  have same := congrArg String.toList trimmed
  rw [toList_trim] at same
  have kept : (patch.toList.dropWhile isWhitespace).rdropWhile isWhitespace ≠ [] := by
    rw [same]
    exact chars
  have visible := rdropWhile_last_not isWhitespace _ kept
  refine ⟨_, _, (dropLast_concat_getLast chars).symm, ?_⟩
  simpa [same] using visible

/-- The strict check passes exactly on the two markers. -/
theorem checkStartAndEndLinesStrict_ok_iff {first last : Option String} :
    checkStartAndEndLinesStrict first last = .ok () ↔
      first.map trim = some beginPatchMarker ∧ last.map trim = some endPatchMarker := by
  unfold checkStartAndEndLinesStrict
  split
  · rename_i first last firstTrimmed lastTrimmed
    rw [firstTrimmed, lastTrimmed]
    split
    · rename_i both
      simp [both]
    split
    · rename_i other
      simp [other]
    · rename_i both first
      rw [not_not] at first
      simpa [first] using both
  · rename_i firstTrimmed lastTrimmed
    rw [firstTrimmed, lastTrimmed]
    split <;> simp
  · rename_i firstTrimmed
    rw [firstTrimmed]
    simp

/-- `parse_patch` on a text without a heredoc: both boundary lines, and the stream of the
joined lines. -/
theorem parsePatch_ok_iff (trimmed : trim patch = patch) (plain : isHeredoc (strLines patch) = false) :
    (parsePatch patch).map ParsedPatch.outcome = .ok outcome ↔
      (strLines patch).head?.map trim = some beginPatchMarker ∧
        (strLines patch).getLast?.map trim = some endPatchMarker ∧
        streamPatch [joinLines (strLines patch)] = .ok outcome := by
  rw [parsePatch, parsePatchText, patchText, trimmed]
  unfold checkPatchBoundaries checkPatchBoundariesStrict
  cases checked : checkStartAndEndLinesStrict (strLines patch).head? (strLines patch).getLast? with
  | error =>
    have refused : ¬ ((strLines patch).head?.map trim = some beginPatchMarker ∧
        (strLines patch).getLast?.map trim = some endPatchMarker) := by
      rw [← checkStartAndEndLinesStrict_ok_iff, checked]
      simp
    simp only [Except.map, plain]
    constructor
    · exact nofun
    · rintro ⟨first, last, _⟩
      exact absurd ⟨first, last⟩ refused
  | ok =>
    obtain ⟨first, last⟩ := checkStartAndEndLinesStrict_ok_iff.mp checked
    simp only [first, last, true_and, Except.map]
    cases streamed : streamPatch [joinLines (strLines patch)] with
    | error => simp
    | ok => simp [ParsedPatch.outcome]

section Whole

variable {lines : List (List Char)} {front : List Char} {char : Char}
  (pieces : LineStream.cut [] patch.toList = (lines, last)) (ends : last = front ++ [char])
  (visible : isWhitespace char = false)

include pieces ends

theorem strLines_pieces :
    strLines patch = (lines.map stripCarriageReturn ++ [last]).map String.ofList := by
  have nonempty : last ≠ [] := by simp [ends]
  rw [strLines_eq, pieces, if_neg nonempty]

theorem streamPatch_joined :
    streamPatch [joinLines (strLines patch)] = streamLines (lines.map stripCarriageReturn) last := by
  obtain ⟨single, unterminated⟩ :=
    cut_single (show '\n' ∉ ([] : List Char) from not_mem_nil) patch.toList
  rw [pieces] at single unterminated
  have stripped : ∀ line ∈ lines.map stripCarriageReturn, '\n' ∉ line :=
    forall_mem_map.mpr fun line mem => not_mem_stripCarriageReturn (single line mem)
  rw [streamPatch_eq, strLines_pieces pieces ends, cut_joinLines stripped unterminated]

variable (trimmed : trim patch = patch) (plain : isHeredoc (strLines patch) = false)

include trimmed plain in
/-- `parse_patch` in the pieces of the text. -/
theorem parsePatch_pieces : (parsePatch patch).map ParsedPatch.outcome = .ok outcome ↔
    lines ≠ [] ∧ trim (String.ofList last) = endPatchMarker ∧
      streamLines (lines.map stripCarriageReturn) last = .ok outcome := by
  rw [parsePatch_ok_iff trimmed plain, streamPatch_joined pieces ends, strLines_pieces pieces ends]
  simp only [getLast?_map, getLast?_concat, map_some, some.injEq]
  constructor
  · rintro ⟨begins, shown, streamed⟩
    refine ⟨?_, shown, streamed⟩
    rintro rfl
    -- The only line would be both boundaries.
    simp only [map_nil, nil_append, map_cons, head?_cons, map_some, shown] at begins
    exact absurd (some.inj begins) (by decide)
  · rintro ⟨nonempty, shown, streamed⟩
    refine ⟨?_, shown, streamed⟩
    obtain ⟨first, _, rfl⟩ := exists_cons_of_ne_nil nonempty
    obtain ⟨_, handled, _⟩ := (streamLines_ok_iff (by simp [ends]) shown).mp streamed
    -- The streaming parser has checked the first line itself.
    have begins := begins_of_handled handled
    rw [trim_stripCarriageReturn] at begins
    simp [begins]

include visible in
/-- A stream that goes through ends with the end marker. -/
theorem ends_of_streamed (streamed : streamPatch [patch] = .ok outcome) :
    trim (String.ofList last) = endPatchMarker := by
  rw [streamPatch_eq, pieces, streamLines] at streamed
  split at streamed
  · cases streamed
  obtain ⟨_, finished, _⟩ := Except.bind_eq_ok_iff.mp streamed
  by_contra other
  have nonempty : last ≠ [] := by simp [ends]
  rw [finish, finishLine] at finished
  simp only [if_neg nonempty, if_neg other] at finished
  split at finished
  · cases finished
  rename_i processed
  split at finished
  · rename_i ended
    rcases ended_processLine processed ended with shown | blank
    · exact other shown
    · obtain ⟨_, trimmed⟩ := trim_append_visible front visible
      rw [← ends, blank] at trimmed
      simp at trimmed
  · cases finished

include visible in
/-- A single line that goes through is the end marker. -/
theorem several_of_streamed (trimmed : trim patch = patch) (longer : patch ≠ endPatchMarker)
    (streamed : streamPatch [patch] = .ok outcome) : lines ≠ [] := by
  rintro rfl
  have whole := cut_unterminated (congrArg Prod.fst pieces)
  rw [pieces, nil_append] at whole
  have shown := ends_of_streamed pieces ends visible streamed
  rw [show last = patch.toList from whole, String.ofList_toList, trimmed] at shown
  exact longer shown

include trimmed plain

theorem streamed_of_parsePatch (parsed : (parsePatch patch).map ParsedPatch.outcome = .ok outcome)
    (undoubled : ¬ DoubledReturn patch) : streamPatch [patch] = .ok outcome := by
  have nonempty : last ≠ [] := by simp [ends]
  obtain ⟨_, shown, streamed⟩ :=
    (parsePatch_pieces pieces ends trimmed plain).mp parsed
  obtain ⟨state, handled, checked, rfl⟩ := (streamLines_ok_iff nonempty shown).mp streamed
  rw [streamPatch_eq, pieces]
  refine (streamLines_ok_iff nonempty shown).mpr ⟨state, ?_, checked, rfl⟩
  apply handleAll_undoubled handled
  intro before text after middle split reached
  rw [← Bool.not_eq_true]
  intro kept
  exact undoubled ⟨before, text, after, middle, by rw [pieces]; exact split, reached, kept⟩

include visible

/-- A stream of more than one line that goes through is parsed, to lighter hunks if a kept
line had two carriage returns. -/
theorem parsePatch_of_streamed (several : lines ≠ []) (streamed : streamPatch [patch] = .ok outcome) :
    ∃ other, (parsePatch patch).map ParsedPatch.outcome = .ok other ∧ (DoubledReturn patch →
        (other.hunks.map Hunk.weight).sum < (outcome.hunks.map Hunk.weight).sum) := by
  have nonempty : last ≠ [] := by simp [ends]
  have shown := ends_of_streamed pieces ends visible streamed
  rw [streamPatch_eq, pieces] at streamed
  obtain ⟨_, handled, checked, rfl⟩ := (streamLines_ok_iff nonempty shown).mp streamed
  obtain ⟨other, otherHandled, shapes, _, doubled⟩ :=
    handleAll_alike (show shape {} = shape {} from rfl) handled
  have otherChecked : ensureUpdateHunkIsNotEmpty
      { other with lineNumber := other.lineNumber + 1 } endPatchMarker = .ok () := by
    rw [← ensureUpdateHunkIsNotEmpty_shape, ← numbered_alike shapes, ensureUpdateHunkIsNotEmpty_shape]
    exact checked
  refine ⟨{ hunks := other.hunks, environmentId := other.environmentId }, ?_, ?_⟩
  · rw [parsePatch_pieces pieces ends trimmed plain]
    exact ⟨several, shown,
      (streamLines_ok_iff nonempty shown).mpr ⟨other, otherHandled, otherChecked, rfl⟩⟩
  · rintro ⟨before, text, after, middle, split, reached, kept⟩
    rw [pieces] at split
    have := doubled before text after middle split reached kept
    exact Nat.lt_of_add_lt_add_right this

/-- Equal outcomes have equal weights, so no carriage return was lost. -/
theorem undoubled_of_agreement
    (agree : ∀ outcome, (parsePatch patch).map ParsedPatch.outcome = .ok outcome ↔
      streamPatch [patch] = .ok outcome) {parsed : ParsedPatch}
    (accepted : parsePatch patch = .ok parsed) :
    ¬ DoubledReturn patch := by
  intro doubled
  have parsedOutcome : (parsePatch patch).map ParsedPatch.outcome = .ok parsed.outcome := by
    rw [accepted]
    rfl
  have several := ((parsePatch_pieces pieces ends trimmed plain).mp parsedOutcome).1
  obtain ⟨_, same, lighter⟩ := parsePatch_of_streamed pieces ends visible trimmed plain
    several ((agree _).mp parsedOutcome)
  rw [parsedOutcome] at same
  cases same
  exact Nat.lt_irrefl _ (lighter doubled)

/-- Without a doubled carriage return both parsers agree. -/
theorem agreement_of_undoubled (longer : patch ≠ endPatchMarker)
    (undoubled : ∀ parsed, parsePatch patch = .ok parsed → ¬ DoubledReturn patch)
    (outcome : StreamOutcome) :
    (parsePatch patch).map ParsedPatch.outcome = .ok outcome ↔ streamPatch [patch] = .ok outcome := by
  have onward : ∀ other, (parsePatch patch).map ParsedPatch.outcome = .ok other →
      streamPatch [patch] = .ok other := by
    intro other parsed
    apply streamed_of_parsePatch pieces ends trimmed plain parsed
    cases accepted : parsePatch patch with
    | error =>
      rw [accepted] at parsed
      cases parsed
    | ok result => exact undoubled result accepted
  refine ⟨onward outcome, ?_⟩
  intro streamed
  have several := several_of_streamed pieces ends visible trimmed longer streamed
  obtain ⟨other, parsed, _⟩ :=
    parsePatch_of_streamed pieces ends visible trimmed plain several streamed
  -- What is parsed is streamed, so it is the outcome of the stream.
  have same := onward other parsed
  rw [streamed] at same
  cases same
  exact parsed

end Whole

/-- For a patch text without white space at its ends and without a heredoc, parsing the
whole text and streaming it agree exactly if the text is not the end marker alone and, where
the whole text is accepted, no line that is kept as text ends with two carriage returns. -/
theorem parsePatch_agrees_iff (patch : String) (trimmed : trim patch = patch)
    (plain : isHeredoc (strLines patch) = false) :
    (∀ outcome, (parsePatch patch).map ParsedPatch.outcome = .ok outcome ↔
        streamPatch [patch] = .ok outcome) ↔
      patch ≠ endPatchMarker ∧ ∀ parsed, parsePatch patch = .ok parsed → ¬ DoubledReturn patch := by
  by_cases empty : patch = ""
  · subst empty
    have refused : parsePatch "" = .error lastLineError := rfl
    have unstreamed : streamPatch [""] = .error lastLineError := rfl
    rw [refused, unstreamed]
    exact ⟨fun _ => ⟨by decide, nofun⟩, fun _ _ => ⟨nofun, nofun⟩⟩
  obtain ⟨start, char, characters, visible⟩ := ends_visible trimmed empty
  have ordinary : char ≠ '\n' := by
    rintro rfl
    cases visible
  cases pieces : cut [] patch.toList with
  | mk =>
    obtain ⟨_, ends⟩ := cut_concat [] start ordinary
    rw [← characters, pieces] at ends
    constructor
    · intro agree
      constructor
      · rintro rfl
        have streamed : streamPatch [endPatchMarker] = .ok { hunks := [], environmentId := none } := by
          decide
        have parsed := (agree _).mpr streamed
        cases parsed
      · intro parsed accepted
        exact undoubled_of_agreement pieces ends visible trimmed plain agree accepted
    · rintro ⟨longer, undoubled⟩
      exact agreement_of_undoubled pieces ends visible trimmed plain longer undoubled

/-- A patch whose lines end with one carriage return. -/
def returnPatch : String :=
  "*** Begin Patch\r\n*** Delete File: a\r\n*** End Patch"

/-- It is parsed and streamed alike. -/
theorem returnLines_agree : (parsePatch returnPatch).map ParsedPatch.outcome =
      .ok { hunks := [.deleteFile "a"], environmentId := none } ∧
    streamPatch [returnPatch] = .ok { hunks := [.deleteFile "a"], environmentId := none } := by
  have undoubled : ¬ DoubledReturn returnPatch := by
    rintro ⟨_, text, _, _, split, _⟩
    have clean : ∀ line ∈ (cut [] returnPatch.toList).1, ¬ ['\r', '\r'] <:+ line := by
      decide
    exact clean (text ++ ['\r', '\r']) (by rw [split]; simp) (suffix_append _ _)
  have agree := (parsePatch_agrees_iff returnPatch (by decide) (by decide)).mpr
    ⟨by decide, fun _ _ => undoubled⟩
  have parsed : (parsePatch returnPatch).map ParsedPatch.outcome =
      .ok { hunks := [.deleteFile "a"], environmentId := none } := by
    decide
  exact ⟨parsed, (agree _).mp parsed⟩

/-- A removed line that ends with two carriage returns. -/
def doubledPatch : String :=
  "*** Begin Patch\n*** Update File: a\n@@\n-old\r\r\n*** End Patch"

/-- The stream keeps the second carriage return, and it accepts the end marker alone. -/
theorem doubledReturn_disagrees :
    (trim doubledPatch = doubledPatch ∧ isHeredoc (strLines doubledPatch) = false ∧
        streamPatch [doubledPatch] =
          .ok { hunks := [.updateFile "a" none [{ oldLines := ["old\r"], newLines := [] }]]
                environmentId := none } ∧
        (parsePatch doubledPatch).map ParsedPatch.outcome =
          .ok { hunks := [.updateFile "a" none [{ oldLines := ["old"], newLines := [] }]]
                environmentId := none }) ∧
      trim endPatchMarker = endPatchMarker ∧ isHeredoc (strLines endPatchMarker) = false ∧
        streamPatch [endPatchMarker] = .ok { hunks := [], environmentId := none } ∧
        parsePatch endPatchMarker = .error firstLineError := by
  refine ⟨⟨by decide, by decide, by decide, ?_⟩, by decide, by decide, by decide, rfl⟩
  rfl

end WeaveCodex.ApplyPatch
