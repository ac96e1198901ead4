/-
Purpose: A patch that is written out in the documented grammar is parsed to the hunks that
  it was written from, with their context line indices and end-of-file flags.
-/
import WeaveCodex.ApplyPatch.Proofs.ParseAgreement
import WeaveCodex.ApplyPatch.Render

namespace WeaveCodex.ApplyPatch

open Library LineParser UpdateFileChunk LineStream List Nat

/-! ### Building a chunk from its lines -/

namespace UpdateFileChunk

variable (text : String) (lines : List String) (chunk : UpdateFileChunk)

/-- The chunk after some text lines. -/
def pushTexts : UpdateFileChunk :=
  lines.foldl (fun chunk line => pushText line chunk) chunk

theorem pushTexts_append (front back : List String) (chunk : UpdateFileChunk) :
    pushTexts (front ++ back) chunk = pushTexts back (pushTexts front chunk) :=
  foldl_append

theorem pushText_removed : pushText ("-" ++ text) = pushOldLine text := by
  simp [pushText]

theorem pushText_added : pushText ("+" ++ text) = pushNewLine text := by
  simp [pushText]

theorem pushText_context : pushText (" " ++ text) = pushContextLine text := by
  simp [pushText]

theorem pushTexts_removed :
    pushTexts (lines.map ("-" ++ ·)) chunk = { chunk with oldLines := chunk.oldLines ++ lines } := by
  induction lines generalizing chunk with
  | nil => simp [pushTexts]
  | cons _ _ ih =>
    rw [map_cons, pushTexts, foldl_cons, pushText_removed]
    exact (ih _).trans (by simp [pushOldLine])

theorem pushTexts_added :
    pushTexts (lines.map ("+" ++ ·)) chunk = { chunk with newLines := chunk.newLines ++ lines } := by
  induction lines generalizing chunk with
  | nil => simp [pushTexts]
  | cons _ _ ih =>
    rw [map_cons, pushTexts, foldl_cons, pushText_added]
    exact (ih _).trans (by simp [pushNewLine])

end UpdateFileChunk

theorem take_append_drop_take {α : Type*} {items : List α} {front back : Nat} (later : front ≤ back) :
    items.take front ++ (items.take back).drop front = items.take back := by
  have whole := take_append_drop front (items.take back)
  rwa [take_take, min_eq_left later] at whole

/-- The rendered lines build the rest of the chunk. -/
theorem pushTexts_renderLines {old new : List String} {indices : List (Nat × Nat)}
    (increasing : indices.Pairwise fun first second => first.1 < second.1 ∧ first.2 < second.2)
    (shared : ∀ pair ∈ indices, ∃ line, old[pair.1]? = some line ∧ new[pair.2]? = some line)
    {oldIndex newIndex : Nat} (later : ∀ pair ∈ indices, oldIndex ≤ pair.1 ∧ newIndex ≤ pair.2)
    (chunk : UpdateFileChunk) (done : List (Nat × Nat)) :
    pushTexts (renderLines old new oldIndex newIndex indices)
        { chunk with
          oldLines := old.take oldIndex
          newLines := new.take newIndex
          contextLineIndices := done } =
      { chunk with oldLines := old, newLines := new, contextLineIndices := done ++ indices } := by
  induction indices generalizing oldIndex newIndex done with
  | nil =>
    rw [renderLines, pushTexts_append, pushTexts_removed, pushTexts_added]
    simp
  | cons pair _ ih =>
    obtain ⟨oldNext, newNext⟩ := pair
    rw [pairwise_cons] at increasing
    rw [forall_mem_cons] at shared later
    obtain ⟨_, oldLine, newLine⟩ := shared.1
    have rest := ih increasing.2 shared.2
      (fun pair mem => increasing.1 pair mem) (done ++ [(oldNext, newNext)])
    rw [renderLines, pushTexts_append, pushTexts_append, pushTexts_removed, pushTexts_added]
    simp only [take_append_drop_take later.1.1, take_append_drop_take later.1.2]
    rw [pushTexts, foldl_cons, pushText_context, oldLine]
    have oldBound := (List.getElem?_eq_some_iff.mp oldLine).1
    have newBound := (List.getElem?_eq_some_iff.mp newLine).1
    simp only [pushContextLine, Option.getD_some, length_take,
      min_eq_left (le_of_lt oldBound), min_eq_left (le_of_lt newBound)]
    rw [take_add_one, oldLine, take_add_one, newLine, append_assoc, singleton_append] at rest
    exact rest

/-! ### Lines -/

variable {text marker other : String}

theorem trimEnd_visible {front : List Char} {char : Char} (ends : text.toList = front ++ [char])
    (visible : isWhitespace char = false) :
    trimEnd text = text := by
  apply String.toList_inj.mp
  rw [toList_trimEnd, ends, rdropWhile_concat_neg _ _ _ (by simp [visible])]

theorem IsContext.visible {context : String} (expressed : IsContext context) :
    ∃ front char, context.toList = front ++ [char] ∧ isWhitespace char = false := by
  have chars : context.toList ≠ [] := by simpa using expressed.nonempty
  have same := congrArg String.toList expressed.trimmed
  rw [toList_trimEnd] at same
  have unblank := rdropWhile_eq_self_iff.mp same chars
  exact ⟨_, _, (dropLast_concat_getLast chars).symm, Bool.eq_false_iff.mpr unblank⟩

theorem IsPath.context {path : String} (expressed : IsPath path) : IsContext path where
  nonempty := expressed.nonempty
  single := expressed.single
  trimmed := by
    obtain ⟨_, _, ends, visible⟩ := ends_visible expressed.trimmed expressed.nonempty
    exact trimEnd_visible ends visible

theorem IsContext.isLine {context : String} (expressed : IsContext context) : IsLine context where
  single := expressed.single
  unreturned := by
    obtain ⟨_, _, ends, visible⟩ := expressed.visible
    rw [ends, getLast?_concat]
    rintro ⟨⟩
    cases visible

theorem IsLine.append {front back : String} (first : IsLine front) (second : IsLine back) :
    IsLine (front ++ back) where
  single := by
    rw [String.toList_append, mem_append, not_or]
    exact ⟨first.single, second.single⟩
  unreturned := by
    rw [String.toList_append, getLast?_append]
    have returned := second.unreturned
    cases last : back.toList.getLast? with
    | none => exact first.unreturned
    | some =>
      rw [last] at returned
      exact returned

/-- A marker with a name behind it is left alone by both ways of trimming. -/
theorem trim_marked (marker : String) (starts : marker.toList.head? = some '*')
    (expressed : IsContext text) :
    trim (marker ++ text) = marker ++ text ∧ trimEnd (marker ++ text) = marker ++ text := by
  obtain ⟨front, char, ends, visible⟩ := expressed.visible
  have whole : (marker ++ text).toList = (marker.toList ++ front) ++ [char] := by
    rw [String.toList_append, ends, append_assoc]
  have star : (marker ++ text).toList.head? = some '*' := by
    rw [String.toList_append, head?_append, starts, Option.some_or]
  have trimmed := trimEnd_visible whole visible
  exact ⟨(trim_eq_trimEnd star (by decide)).trans trimmed, trimmed⟩

section

variable (count : Nat) (apart : marker.toList.take count ≠ other.toList.take count ∧
  count ≤ marker.toList.length ∧ count ≤ other.toList.length)
include apart

/-- Texts that start with different markers. -/
theorem append_ne_append (text rest : String) : marker ++ text ≠ other ++ rest := by
  intro same
  have starts := congrArg (fun whole => whole.toList.take count) same
  simp only [String.toList_append, take_append_of_le_length apart.2.1,
    take_append_of_le_length apart.2.2] at starts
  exact apart.1 starts

theorem stripLeading_other {text : String} : stripLeading other (marker ++ text) = none := by
  cases stripped : stripLeading other (marker ++ text) with
  | none => rfl
  | some rest =>
    exact absurd (stripLeading_eq_some.mp stripped)
      (append_ne_append count apart text rest)

end

theorem stripLeading_self (marker text : String) : stripLeading marker (marker ++ text) = some text :=
  stripLeading_eq_some.mpr rfl

/-! ### Headers -/

namespace LineParser

variable {parser final : LineParser}

theorem append_ne_endPatchMarker {marker : String}
    (apart : marker.toList.take 5 ≠ endPatchMarker.toList.take 5 ∧ 5 ≤ marker.toList.length)
    (text : String) : marker ++ text ≠ endPatchMarker := by
  rw [← String.append_empty (s := endPatchMarker)]
  exact append_ne_append 5 ⟨apart.1, apart.2, by decide⟩ text ""

theorem handle_addFile (path : String) : parser.handleHunkHeadersAndEndPatch (addFileMarker ++ path) =
    parser.openHunk (addFileMarker ++ path) (.addFile path "") .addFile := by
  rw [handleHunkHeadersAndEndPatch, stripLeading_other 5 (by decide), ite_self, stripLeading_self]
  exact if_neg (append_ne_endPatchMarker (by decide) path)

theorem handle_deleteFile (path : String) :
    parser.handleHunkHeadersAndEndPatch (deleteFileMarker ++ path) =
      parser.openHunk (deleteFileMarker ++ path) (.deleteFile path) .deleteFile := by
  rw [handleHunkHeadersAndEndPatch, stripLeading_other 5 (by decide), ite_self,
    stripLeading_other 5 (by decide), stripLeading_self]
  exact if_neg (append_ne_endPatchMarker (by decide) path)

theorem handle_updateFile (path : String) :
    parser.handleHunkHeadersAndEndPatch (updateFileMarker ++ path) =
      parser.openHunk (updateFileMarker ++ path) (.updateFile path none [])
        (.updateFile parser.lineNumber) := by
  rw [handleHunkHeadersAndEndPatch, stripLeading_other 5 (by decide), ite_self,
    stripLeading_other 5 (by decide),
    stripLeading_other 5 (by decide), stripLeading_self]
  exact if_neg (append_ne_endPatchMarker (by decide) path)

end LineParser

/-! ### Reading lines -/

/-- The texts are lines, and the parser that reads them ends up as `final`. -/
structure Reads (parser : LineParser) (lines : List String) (final : LineParser) : Prop where
  expressed : ∀ line ∈ lines, IsLine line
  handled : LineStream.handleAll LineParser.handleLine parser (lines.map String.toList) = .ok final

namespace Reads

variable {parser middle final : LineParser}

theorem refl (parser : LineParser) : Reads parser [] parser where
  expressed := by simp
  handled := rfl

theorem append {front back : List String} (first : Reads parser front middle)
    (second : Reads middle back final) : Reads parser (front ++ back) final where
  expressed := forall_mem_append.mpr ⟨first.expressed, second.expressed⟩
  handled := by
    rw [map_append, handleAll_append, first.handled]
    exact second.handled

variable {line : String}

theorem single (expressed : IsLine line)
    (processed : processLine { parser with lineNumber := parser.lineNumber + 1 } line = .ok final) :
    Reads parser [line] final where
  expressed := by simpa using expressed
  handled := by
    have kept : stripCarriageReturn line.toList = line.toList := if_neg expressed.unreturned
    rw [map_singleton, handleAll, handleLine, kept, String.ofList_toList, processed]
    rfl

theorem cons {lines : List String} (first : Reads parser [line] middle)
    (later : Reads middle lines final) : Reads parser (line :: lines) final :=
  first.append later

end Reads

/-- Between two hunks: the last one is complete. -/
structure Ready (parser : LineParser) (hunks : List Hunk) : Prop where
  hunks : parser.hunks = hunks
  environment : parser.environmentId = none
  started : parser.mode ≠ .notStarted
  unended : parser.mode ≠ .endedPatch
  complete : ∀ lineNumber line,
    LineParser.ensureUpdateHunkIsNotEmpty { parser with lineNumber } line = .ok ()

/-- In an add hunk. -/
structure InAdd (parser : LineParser) (front : List Hunk) (path contents : String) : Prop where
  hunks : parser.hunks = front ++ [.addFile path contents]
  environment : parser.environmentId = none
  mode : parser.mode = .addFile

/-- In an update hunk. -/
structure InUpdate (parser : LineParser) (front : List Hunk) (path : String)
    (movePath : Option String) (chunks : List UpdateFileChunk) : Prop where
  hunks : parser.hunks = front ++ [.updateFile path movePath chunks]
  environment : parser.environmentId = none
  mode : ∃ hunkLineNumber, parser.mode = .updateFile hunkLineNumber

section Reading

variable {parser : LineParser} {hunks front : List Hunk} {path contents : String}
  {movePath : Option String} {chunks : List UpdateFileChunk}

theorem InAdd.ready (within : InAdd parser front path contents) :
    Ready parser (front ++ [.addFile path contents]) where
  hunks := within.hunks
  environment := within.environment
  started := by simp [within.mode]
  unended := by simp [within.mode]
  complete lineNumber line := by simp [ensureUpdateHunkIsNotEmpty, within.hunks]

theorem InUpdate.ready (within : InUpdate parser front path movePath chunks)
    {last : UpdateFileChunk} (present : chunks.getLast? = some last)
    (filled : last.hasNoLines = false) :
    Ready parser (front ++ [.updateFile path movePath chunks]) := by
  obtain ⟨_, mode⟩ := within.mode
  refine ⟨within.hunks, within.environment, by simp [mode], by simp [mode], ?_⟩
  intro lineNumber line
  simp [ensureUpdateHunkIsNotEmpty, within.hunks, present, filled]

variable {hunk : Hunk} {line : String} {lines : List String}

/-- A header opens its hunk. -/
theorem Ready.reads_header (ready : Ready parser hunks) (marker : String)
    (starts : marker.toList.head? = some '*') (line : IsLine marker) (expressed : IsPath path)
    {mode : StreamingParserMode} (opens : handleHunkHeadersAndEndPatch
        { parser with lineNumber := parser.lineNumber + 1 } (marker ++ path) =
      openHunk { parser with lineNumber := parser.lineNumber + 1 } (marker ++ path)
        hunk mode) :
    ∃ final, Reads parser [marker ++ path] final ∧ final.hunks = hunks ++ [hunk] ∧
      final.environmentId = none ∧ final.mode = mode := by
  obtain ⟨trimmed, trimmedEnd⟩ := trim_marked marker starts expressed.context
  refine ⟨{ parser with
      lineNumber := parser.lineNumber + 1
      hunks := hunks ++ [hunk]
      mode := mode }, ?_, rfl, ready.environment, rfl⟩
  apply Reads.single (line.append expressed.context.isLine)
  refine processLine_ok_iff.mpr (.inr (.header ready.started ready.unended ?_))
  have looked : headerText { parser with lineNumber := parser.lineNumber + 1 }
      (trim (marker ++ path)) (trimEnd (marker ++ path)) = marker ++ path := by
    rw [trimmed, trimmedEnd, headerText]
    split <;> rfl
  rw [looked, opens, openHunk, ready.complete]
  simp [Except.map, ready.hunks]

/-- An added line of a new file. -/
theorem InAdd.reads_line (within : InAdd parser front path contents) (expressed : IsLine line) :
    ∃ final, Reads parser ["+" ++ line] final ∧ InAdd final front path (contents ++ line ++ "\n") := by
  have signed : IsLine ("+" ++ line) := .append ⟨by decide, by decide⟩ expressed
  refine ⟨_, .single signed (processLine_ok_iff.mpr (.inl ⟨?_, rfl⟩)), ?_⟩
  · simp [keepsText, within.mode, within.hunks]
  · constructor
    · simp [withText, replaceLast, within.hunks]
    · simp [withText, replaceLast, within.hunks, within.environment]
    · simp [withText, replaceLast, within.hunks, within.mode]

theorem InAdd.reads_lines (within : InAdd parser front path contents)
    (expressed : ∀ line ∈ lines, IsLine line) :
    ∃ final, Reads parser (lines.map ("+" ++ ·)) final ∧
      InAdd final front path (contents ++ String.join (lines.map (· ++ "\n"))) := by
  induction lines generalizing parser contents with
  | nil => exact ⟨parser, .refl parser, by simpa using within⟩
  | cons _ _ ih =>
    rw [forall_mem_cons] at expressed
    obtain ⟨_, first, afterLine⟩ := within.reads_line expressed.1
    obtain ⟨final, later, _⟩ := ih afterLine expressed.2
    refine ⟨final, first.cons later, ?_⟩
    rwa [map_cons, String.join_cons, ← String.append_assoc, ← String.append_assoc]

variable {chunk : UpdateFileChunk}

/-- A text line of a chunk. -/
theorem InUpdate.reads_text (within : InUpdate parser front path movePath (chunks ++ [chunk]))
    (unended : chunk.isEndOfFile = false) (expressed : IsLine line) (text : isTextLine line = true) :
    ∃ final, Reads parser [line] final ∧
      InUpdate final front path movePath (chunks ++ [pushText line chunk]) := by
  obtain ⟨hunkLineNumber, mode⟩ := within.mode
  refine ⟨_, .single expressed (processLine_ok_iff.mpr (.inl ⟨?_, rfl⟩)), ?_⟩
  · simp [keepsText, mode, within.hunks, atEndOfFile, unended, text]
  · constructor
    · simp [withText, replaceLast, within.hunks, editLastChunk]
    · simp [withText, replaceLast, within.hunks, within.environment]
    · exact ⟨hunkLineNumber, by
        simp [withText, replaceLast, within.hunks, mode]⟩

theorem isEndOfFile_pushText (line : String) (chunk : UpdateFileChunk) :
    (pushText line chunk).isEndOfFile = chunk.isEndOfFile := by
  unfold pushText
  cases line.toList with
  | nil => rfl
  | cons sign =>
    by_cases added : sign = '+'
    · simp [added, pushNewLine]
    by_cases removed : sign = '-'
    · simp [removed, pushOldLine]
    simp [added, removed, pushContextLine]

theorem InUpdate.reads_texts (within : InUpdate parser front path movePath (chunks ++ [chunk]))
    (unended : chunk.isEndOfFile = false)
    (expressed : ∀ line ∈ lines, IsLine line ∧ isTextLine line = true) :
    ∃ final, Reads parser lines final ∧
      InUpdate final front path movePath (chunks ++ [pushTexts lines chunk]) := by
  induction lines generalizing parser chunk with
  | nil => exact ⟨parser, .refl parser, within⟩
  | cons line _ ih =>
    rw [forall_mem_cons] at expressed
    obtain ⟨_, first, afterLine⟩ := within.reads_text unended expressed.1.1 expressed.1.2
    obtain ⟨final, later, afterLines⟩ :=
      ih afterLine ((isEndOfFile_pushText line chunk).trans unended) expressed.2
    exact ⟨final, first.cons later, afterLines⟩

variable (within : InUpdate parser front path movePath chunks)
include within

/-- A marker line of an update hunk. -/
theorem InUpdate.reads_marker (expressed : IsLine line) (ordinary : handleHunkHeadersAndEndPatch
      { parser with lineNumber := parser.lineNumber + 1 } (trimEnd line) = .ok none)
    {finalPath : Option String} {finalChunks : List UpdateFileChunk}
    (marks : Marker (trimEnd line) movePath chunks finalPath finalChunks) :
    ∃ final, Reads parser [line] final ∧ InUpdate final front path finalPath finalChunks := by
  obtain ⟨hunkLineNumber, mode⟩ := within.mode
  have last : parser.hunks.getLast? = some (.updateFile path movePath chunks) := by
    rw [within.hunks, getLast?_concat]
  refine ⟨_, .single expressed (processLine_ok_iff.mpr (.inr
    (.marker mode ordinary last marks))), ?_⟩
  constructor
  · simp [replaceLast, within.hunks]
  · simp [replaceLast, within.environment]
  · exact ⟨hunkLineNumber, by simp [replaceLast, mode]⟩

/-- The header of a chunk. -/
theorem InUpdate.reads_context (filled : lastHasNoLines chunks = false) {context : Option String}
    (expressed : ∀ text ∈ context, IsContext text) :
    ∃ final, Reads parser [renderContext context] final ∧ InUpdate final front path movePath
        (chunks ++ [{ empty with changeContext := context }]) := by
  cases context with
  | none =>
    have trimmed : trimEnd emptyChangeContextMarker = emptyChangeContextMarker := by decide
    have marker : IsLine emptyChangeContextMarker := ⟨by decide, by decide⟩
    apply within.reads_marker marker
    · rw [trimmed]
      exact handleHunkHeadersAndEndPatch_unmarked (by decide)
    · rw [trimmed]
      exact .opened filled rfl
  | some text =>
    have context := expressed text rfl
    obtain ⟨start, char, ends, visible⟩ := context.visible
    have whole : (changeContextMarker ++ text).toList =
        (changeContextMarker.toList ++ start) ++ [char] := by
      rw [String.toList_append, ends, append_assoc]
    have trimmed := trimEnd_visible whole visible
    have marker : IsLine changeContextMarker := ⟨by decide, by decide⟩
    apply within.reads_marker (marker.append context.isLine)
    · rw [trimmed]
      apply handleHunkHeadersAndEndPatch_unmarked
      have starts : changeContextMarker.toList.head? = some '@' := rfl
      rw [String.toList_append, head?_append, starts]
      simp
    · rw [trimmed]
      exact .openedAt filled (stripLeading_self changeContextMarker text)

omit within

/-- Every rendered line of a chunk is a text line. -/
theorem renderLines_expressed {old new : List String} {indices : List (Nat × Nat)}
    (oldLines : ∀ line ∈ old, IsLine line) (newLines : ∀ line ∈ new, IsLine line)
    (shared : ∀ pair ∈ indices, ∃ line, old[pair.1]? = some line ∧ new[pair.2]? = some line)
    {oldIndex newIndex : Nat} :
    ∀ line ∈ renderLines old new oldIndex newIndex indices, IsLine line ∧ isTextLine line = true := by
  have signed : ∀ sign text : String, IsLine sign → isTextLine (sign ++ text) = true →
      IsLine text → IsLine (sign ++ text) ∧ isTextLine (sign ++ text) = true :=
    fun sign text signLine signText line => ⟨signLine.append line, signText⟩
  have removed : ∀ text ∈ old, IsLine ("-" ++ text) ∧ isTextLine ("-" ++ text) = true :=
    fun text mem => signed "-" text ⟨by decide, by decide⟩ (by simp [isTextLine])
      (oldLines text mem)
  have added : ∀ text ∈ new, IsLine ("+" ++ text) ∧ isTextLine ("+" ++ text) = true :=
    fun text mem => signed "+" text ⟨by decide, by decide⟩ (by simp [isTextLine])
      (newLines text mem)
  induction indices generalizing oldIndex newIndex with
  | nil =>
    intro line mem
    simp only [renderLines, mem_append, mem_map] at mem
    rcases mem with ⟨text, mem, rfl⟩ | ⟨text, mem, rfl⟩
    · exact removed text (mem_of_mem_drop mem)
    · exact added text (mem_of_mem_drop mem)
  | cons _ _ ih =>
    rw [forall_mem_cons] at shared
    intro line mem
    simp only [renderLines, mem_append, mem_map, mem_cons] at mem
    rcases mem with (⟨text, mem, rfl⟩ | ⟨text, mem, rfl⟩) | rfl | later
    · exact removed text (mem_of_mem_take (mem_of_mem_drop mem))
    · exact added text (mem_of_mem_take (mem_of_mem_drop mem))
    · obtain ⟨text, oldLine, _⟩ := shared.1
      rw [oldLine, Option.getD_some]
      exact signed " " text ⟨by decide, by decide⟩ (by simp [isTextLine])
        (oldLines text (mem_of_getElem? oldLine))
    · exact ih shared.2 line later

/-- The end-of-file line of a chunk that has lines. -/
theorem InUpdate.reads_endOfFile (within : InUpdate parser front path movePath (chunks ++ [chunk]))
    (filled : chunk.hasNoLines = false) (unended : chunk.isEndOfFile = false) :
    ∃ final, Reads parser [eofMarker] final ∧
      InUpdate final front path movePath (chunks ++ [{ chunk with isEndOfFile := true }]) := by
  have trimmed : trimEnd eofMarker = eofMarker := by decide
  have marker : IsLine eofMarker := ⟨by decide, by decide⟩
  have marked : markEndOfFile (chunks ++ [chunk]) = chunks ++ [{ chunk with isEndOfFile := true }] := by
    simp [markEndOfFile]
  rw [← marked]
  apply within.reads_marker marker
  · rw [trimmed]
    rw [handleHunkHeadersAndEndPatch,
      show stripLeading environmentIdMarker eofMarker = none by decide, ite_self,
      show stripLeading updateFileMarker eofMarker = none by decide]
    exact if_neg (by decide)
  · rw [trimmed]
    exact .endOfFile (by simp [lastHasNoLines, filled]) (by simp [atEndOfFile, unended]) rfl

include within

/-- A rendered chunk is read back. -/
theorem InUpdate.reads_chunk (filled : lastHasNoLines chunks = false) (expressed : chunk.Renderable) :
    ∃ final, Reads parser (renderChunk chunk) final ∧
      InUpdate final front path movePath (chunks ++ [chunk]) := by
  obtain ⟨_, context, afterContext⟩ := within.reads_context filled expressed.context
  obtain ⟨written, texts, afterTexts⟩ := afterContext.reads_texts rfl
    (renderLines_expressed expressed.old expressed.new expressed.shared)
  have built : pushTexts (renderLines chunk.oldLines chunk.newLines 0 0 chunk.contextLineIndices)
      { empty with changeContext := chunk.changeContext } =
      { chunk with isEndOfFile := false } :=
    pushTexts_renderLines expressed.increasing expressed.shared
      (fun pair _ => ⟨zero_le _, zero_le _⟩) { chunk with isEndOfFile := false } []
  rw [built] at afterTexts
  cases flag : chunk.isEndOfFile with
  | false =>
    refine ⟨written, ?_, ?_⟩
    · rw [renderChunk, flag]
      simpa using context.cons texts
    · rwa [← flag] at afterTexts
  | true =>
    obtain ⟨final, eof, afterEof⟩ := afterTexts.reads_endOfFile expressed.nonempty rfl
    refine ⟨final, ?_, ?_⟩
    · rw [renderChunk, flag]
      exact context.cons (texts.append eof)
    · rwa [← flag] at afterEof

theorem InUpdate.reads_chunks (filled : lastHasNoLines chunks = false) {more : List UpdateFileChunk}
    (expressed : ∀ chunk ∈ more, chunk.Renderable) :
    ∃ final, Reads parser (more.flatMap renderChunk) final ∧
      InUpdate final front path movePath (chunks ++ more) := by
  induction more generalizing parser chunks with
  | nil => exact ⟨parser, .refl parser, by simpa using within⟩
  | cons chunk _ ih =>
    rw [forall_mem_cons] at expressed
    obtain ⟨_, first, afterChunk⟩ := within.reads_chunk filled expressed.1
    have nonempty : lastHasNoLines (chunks ++ [chunk]) = false := by
      simp [lastHasNoLines, expressed.1.nonempty]
    obtain ⟨final, later, afterChunks⟩ := ih afterChunk nonempty expressed.2
    refine ⟨final, first.append later, ?_⟩
    rwa [append_assoc, singleton_append] at afterChunks

omit within

/-- The destination of a move. -/
theorem InUpdate.reads_moveTo (within : InUpdate parser front path none [])
    (expressed : ∀ destination ∈ movePath, IsPath destination) :
    ∃ final, Reads parser (movePath.toList.map (moveToMarker ++ ·)) final ∧
      InUpdate final front path movePath [] := by
  cases movePath with
  | none => exact ⟨parser, .refl parser, within⟩
  | some destination =>
    have named := expressed destination rfl
    have marker : IsLine moveToMarker := ⟨by decide, by decide⟩
    have trimmed := (trim_marked moveToMarker rfl named.context).2
    apply within.reads_marker (marker.append named.context.isLine)
    · rw [trimmed]
      rw [handleHunkHeadersAndEndPatch, stripLeading_other 5 (by decide), ite_self,
        stripLeading_other 5 (by decide),
        stripLeading_other 5 (by decide),
        stripLeading_other 5 (by decide)]
      exact if_neg (append_ne_endPatchMarker (by decide) destination)
    · rw [trimmed]
      exact .moved rfl rfl (stripLeading_self moveToMarker destination)

theorem join_splitLines {contents : String} (complete : endsEmpty (splitLines contents) = true) :
    String.join ((splitLines contents).dropLast.map (· ++ "\n")) = contents := by
  have unterminated : (cut [] contents.toList).2 = [] := by
    rw [endsEmpty, splitLines, splitLinesFrom_eq_cut] at complete
    simpa using complete
  have whole := cut_text_eq [] contents.toList
  rw [unterminated, append_nil, nil_append] at whole
  rw [splitLines, splitLinesFrom_eq_cut, map_append, map_singleton, dropLast_concat]
  apply String.toList_inj.mp
  rw [String.toList_join]
  simpa [flatMap_map] using whole

/-- A rendered hunk is read back. -/
theorem Ready.reads_hunk (ready : Ready parser hunks) (expressed : hunk.Renderable) :
    ∃ final, Reads parser (renderHunk hunk) final ∧ Ready final (hunks ++ [hunk]) := by
  cases hunk with
  | addFile path =>
    obtain ⟨named, complete, lines⟩ := expressed
    obtain ⟨opened, header, openHunks, environment, mode⟩ := ready.reads_header addFileMarker rfl
      ⟨by decide, by decide⟩ named (handle_addFile path)
    have within : InAdd opened hunks path "" := ⟨openHunks, environment, mode⟩
    obtain ⟨final, added, afterLines⟩ := within.reads_lines lines
    rw [join_splitLines complete, String.empty_append] at afterLines
    exact ⟨final, header.cons added, afterLines.ready⟩
  | deleteFile path =>
    obtain ⟨opened, header, openHunks, environment, mode⟩ :=
      ready.reads_header deleteFileMarker rfl ⟨by decide, by decide⟩ expressed (handle_deleteFile path)
    refine ⟨opened, header, openHunks, environment, by simp [mode], by simp [mode], ?_⟩
    intro lineNumber line
    simp [ensureUpdateHunkIsNotEmpty, openHunks]
  | updateFile path =>
    obtain ⟨named, destination, nonempty, chunksExpressed⟩ := expressed
    obtain ⟨opened, header, openHunks, environment, mode⟩ :=
      ready.reads_header updateFileMarker rfl ⟨by decide, by decide⟩ named (handle_updateFile path)
    have within : InUpdate opened hunks path none [] := ⟨openHunks, environment, _, mode⟩
    obtain ⟨_, move, afterMove⟩ := within.reads_moveTo destination
    obtain ⟨final, read, afterChunks⟩ := afterMove.reads_chunks rfl chunksExpressed
    refine ⟨final, header.cons (move.append read), ?_⟩
    have last := getLast?_eq_some_getLast nonempty
    exact afterChunks.ready last (chunksExpressed _ (getLast_mem nonempty)).nonempty

theorem Ready.reads_hunks (ready : Ready parser hunks) {more : List Hunk}
    (expressed : ∀ hunk ∈ more, hunk.Renderable) :
    ∃ final, Reads parser (more.flatMap renderHunk) final ∧ Ready final (hunks ++ more) := by
  induction more generalizing parser hunks with
  | nil => exact ⟨parser, .refl parser, by simpa using ready⟩
  | cons _ _ ih =>
    rw [forall_mem_cons] at expressed
    obtain ⟨_, first, afterHunk⟩ := ready.reads_hunk expressed.1
    obtain ⟨final, later, afterHunks⟩ := ih afterHunk expressed.2
    refine ⟨final, first.append later, ?_⟩
    rwa [append_assoc, singleton_append] at afterHunks

end Reading

/-! ### The patch -/

theorem reads_begin : ∃ final, Reads {} [beginPatchMarker] final ∧ Ready final [] := by
  refine ⟨{ mode := .startedPatch, lineNumber := 1 }, .single ⟨by decide, by decide⟩ rfl, ?_⟩
  exact ⟨rfl, rfl, by simp, by simp, fun _ _ => rfl⟩

/-- The lines of a rendered patch, and the parser that has read all but the last one. -/
theorem reads_body {hunks : List Hunk} (expressed : ∀ hunk ∈ hunks, hunk.Renderable) :
    ∃ final, Reads {} (renderBody hunks) final ∧ Ready final hunks := by
  obtain ⟨_, begin, ready⟩ := reads_begin
  obtain ⟨final, read, complete⟩ := ready.reads_hunks expressed
  exact ⟨final, begin.cons read, complete⟩

section Rendered

variable {lines : List String} (expressed : ∀ line ∈ lines, IsLine line)

include expressed

theorem cut_rendered : cut [] (joinLines (lines ++ [endPatchMarker])).toList =
    (lines.map String.toList, endPatchMarker.toList) := by
  have same : lines ++ [endPatchMarker] =
      (lines.map String.toList ++ [endPatchMarker.toList]).map String.ofList := by
    simp [Function.comp_def]
  rw [same]
  apply cut_joinLines
  · exact forall_mem_map.mpr fun text mem => (expressed text mem).single
  · decide

theorem stripped_rendered :
    (lines.map String.toList).map stripCarriageReturn = lines.map String.toList := by
  rw [map_map]
  apply map_congr_left
  intro line mem
  exact if_neg (expressed line mem).unreturned

theorem trim_rendered {rest : List String} (begins : lines = beginPatchMarker :: rest) :
    trim (joinLines (lines ++ [endPatchMarker])) = joinLines (lines ++ [endPatchMarker]) := by
  have whole := cut_text_eq [] (joinLines (lines ++ [endPatchMarker])).toList
  rw [cut_rendered expressed, nil_append] at whole
  have starts : (joinLines (lines ++ [endPatchMarker])).toList.head? = some '*' := by
    rw [← whole, begins]
    rfl
  rw [show endPatchMarker.toList = "*** End Patc".toList ++ ['h'] from rfl, ← append_assoc] at whole
  exact (trim_eq_trimEnd starts (by decide)).trans (trimEnd_visible whole.symm (by decide))

end Rendered

/-- A list of hunks that the grammar can express, written out and parsed, gives the hunks
back. -/
theorem parsePatch_renderPatch (hunks : List Hunk) (expressed : ∀ hunk ∈ hunks, hunk.Renderable) :
    (parsePatch (renderPatch hunks)).map ParsedPatch.outcome =
      .ok { hunks, environmentId := none } := by
  obtain ⟨final, read, ready⟩ := reads_body expressed
  have pieces := cut_rendered read.expressed
  have ends : endPatchMarker.toList = "*** End Patc".toList ++ ['h'] := rfl
  have trimmed := trim_rendered read.expressed rfl
  have plain : isHeredoc (strLines (renderPatch hunks)) = false := by
    rw [renderPatch, strLines_pieces pieces ends, stripped_rendered read.expressed, isHeredoc,
      renderBody]
    have first : beginPatchMarker ∉ heredocMarkers := by decide
    simp [first]
  rw [renderPatch, parsePatch_pieces pieces ends trimmed plain, stripped_rendered read.expressed]
  refine ⟨by simp [renderBody], by decide, ?_⟩
  apply (streamLines_ok_iff (by decide) (by decide)).mpr
  refine ⟨final, read.handled, ready.complete _ _, ?_⟩
  rw [ready.hunks, ready.environment]

/-- A move with a context line before a change and one after it. -/
def contextChunk : UpdateFileChunk :=
  { changeContext := some "def f():"
    oldLines := ["*** End Patch", "old", ""]
    newLines := ["*** End Patch", "@@ new", ""]
    contextLineIndices := [(0, 0), (2, 2)]
    isEndOfFile := true }

/-- Text that looks like a marker and a blank context line are read back. -/
theorem contextChunk_parsed : (parsePatch (renderPatch
    [.addFile "a" "+x\n\n", .deleteFile "b", .updateFile "c" (some "d") [contextChunk]])).map
      ParsedPatch.outcome =
    .ok { hunks :=
            [.addFile "a" "+x\n\n", .deleteFile "b", .updateFile "c" (some "d") [contextChunk]]
          environmentId := none } := by
  have path (name : String) (is : name ≠ "" ∧ '\n' ∉ name.toList ∧ trim name = name) : IsPath name :=
    ⟨is.1, is.2.1, is.2.2⟩
  have lines (texts : List String)
      (are : ∀ line ∈ texts, '\n' ∉ line.toList ∧ line.toList.getLast? ≠ some '\r') :
      ∀ line ∈ texts, IsLine line := fun line mem => ⟨(are line mem).1, (are line mem).2⟩
  apply parsePatch_renderPatch
  simp only [forall_mem_cons]
  refine ⟨⟨path _ (by decide), by decide, lines _ (by decide)⟩, path _ (by decide),
    ⟨path _ (by decide), ?_, by simp, ?_⟩, by simp⟩
  · rintro _ ⟨⟩
    exact path _ (by decide)
  · refine forall_mem_singleton.mpr
      ⟨?_, rfl, lines _ (by decide), lines _ (by decide), by decide, by simp [contextChunk]⟩
    rintro _ ⟨⟩
    exact ⟨by decide, by decide, by decide⟩

end WeaveCodex.ApplyPatch
