/-
Purpose: What one line can do to the patch parser: it is kept as text of the last hunk, or
  it is a marker, and then only its trimmed text matters.
-/
import WeaveCodex.ApplyPatch.Proofs.PatchText
import WeaveCodex.Library.Fallible

namespace WeaveCodex.ApplyPatch

open UpdateFileChunk String List Option Except

/-! ### Lines of an update hunk -/

/-- A line that an update hunk can take as text: it is empty or starts with a sign. -/
def isTextLine (line : String) : Bool :=
  line.toList.head?.all fun sign => sign = ' ' || sign = '+' || sign = '-'

/-- The chunk after a text line. -/
def UpdateFileChunk.pushText (line : String) : UpdateFileChunk → UpdateFileChunk :=
  match line.toList with
  | [] => pushContextLine ""
  | sign :: text =>
    if sign = '+' then pushNewLine (ofList text)
    else if sign = '-' then pushOldLine (ofList text)
    else pushContextLine (ofList text)

def atEndOfFile (chunks : List UpdateFileChunk) : Bool :=
  chunks.getLast?.any UpdateFileChunk.isEndOfFile

def lastHasNoLines (chunks : List UpdateFileChunk) : Bool :=
  chunks.getLast?.any UpdateFileChunk.hasNoLines

theorem stripLeading_sign (sign : Char) (text : List Char) :
    stripLeading (ofList [sign]) (ofList (sign :: text)) = some (ofList text) := by
  rw [stripLeading_eq_some, ← ofList_append, singleton_append]

variable {lineNumber : Nat} {line : String}

/-- A text line goes to the last chunk. -/
theorem processTextLine_text (text : isTextLine line = true) (chunks : List UpdateFileChunk) :
    processTextLine lineNumber line chunks = .ok (editLastChunk (pushText line) chunks) := by
  obtain ⟨chars, rfl⟩ : ∃ chars, line = ofList chars :=
    ⟨line.toList, ofList_toList.symm⟩
  rw [isTextLine, toList_ofList] at text
  rw [processTextLine, pushText, toList_ofList]
  cases chars with
  | nil => rfl
  | cons sign rest =>
    have nonempty : ofList (sign :: rest) ≠ "" := by
      simp [← toList_inj]
    simp only [head?_cons, all_some, Bool.or_eq_true, decide_eq_true_eq] at text
    rw [if_neg nonempty]
    rcases text with (rfl | rfl) | rfl
    · rw [show (" " : String) = ofList [' '] from rfl, stripLeading_sign]
      rfl
    · rw [stripLeading_eq_none " " ' ' rfl (by simp),
        show ("+" : String) = ofList ['+'] from rfl, stripLeading_sign]
      rfl
    · rw [stripLeading_eq_none " " ' ' rfl (by simp), stripLeading_eq_none "+" '+' rfl (by simp),
        show ("-" : String) = ofList ['-'] from rfl, stripLeading_sign]
      rfl

theorem isTextLine_of_stripped {text : String} {sign : Char}
    (signed : sign = ' ' ∨ sign = '+' ∨ sign = '-')
    (stripped : stripLeading (ofList [sign]) line = some text) : isTextLine line = true := by
  rw [stripLeading_eq_some.mp stripped, isTextLine, toList_append, toList_ofList]
  rcases signed with rfl | rfl | rfl
  all_goals rfl

theorem isTextLine_of_processed {chunks final : List UpdateFileChunk}
    (processed : processTextLine lineNumber line chunks = .ok final) : isTextLine line = true := by
  unfold processTextLine at processed
  split at processed
  · rename_i empty
    rw [empty]
    rfl
  split at processed
  · rename_i stripped
    exact isTextLine_of_stripped (.inl rfl) stripped
  split at processed
  · rename_i stripped
    exact isTextLine_of_stripped (.inr (.inl rfl)) stripped
  split at processed
  · rename_i stripped
    exact isTextLine_of_stripped (.inr (.inr rfl)) stripped
  split at processed <;> cases processed

/-- A line of an update hunk that is not kept as text, by its trimmed text. -/
inductive Marker (updateLine : String) (movePath : Option String)
    (chunks : List UpdateFileChunk) : Option String → List UpdateFileChunk → Prop
  /-- A blank line after the end of the file. -/
  | ignored (ended : atEndOfFile chunks = true) (blank : updateLine = "") :
      Marker updateLine movePath chunks movePath chunks
  | moved {destination : String} (first : chunks = []) (unmoved : movePath = none)
      (stripped : stripLeading moveToMarker updateLine = some destination) :
      Marker updateLine movePath chunks (some destination) chunks
  | opened (filled : lastHasNoLines chunks = false)
      (bare : updateLine = emptyChangeContextMarker) :
      Marker updateLine movePath chunks movePath (chunks ++ [.empty])
  | openedAt {context : String} (filled : lastHasNoLines chunks = false)
      (stripped : stripLeading changeContextMarker updateLine = some context) :
      Marker updateLine movePath chunks movePath
        (chunks ++ [{ UpdateFileChunk.empty with changeContext := some context }])
  | endOfFile (filled : lastHasNoLines chunks = false) (unended : atEndOfFile chunks = false)
      (shown : updateLine = eofMarker) :
      Marker updateLine movePath chunks movePath (markEndOfFile chunks)

/-- A text line starts none of the markers. -/
theorem head?_trimEnd_text (text : isTextLine line = true) :
    (trimEnd line).toList.head? ≠ some '*' ∧ (trimEnd line).toList.head? ≠ some '@' := by
  constructor
  all_goals
    intro starts
    rw [isTextLine, head?_trimEnd starts] at text
    simp at text

section Unmarked

variable {text : String}

theorem ne_of_head? (marker : String) {char : Char} (marked : marker.toList.head? = some char)
    (other : text.toList.head? ≠ some char) : text ≠ marker := by
  rintro rfl
  exact other marked

theorem isChangeContext_unmarked (unmarked : text.toList.head? ≠ some '@') :
    isChangeContext text = false := by
  rw [isChangeContext, stripLeading_eq_none changeContextMarker '@' rfl unmarked]
  simp [ne_of_head? emptyChangeContextMarker rfl unmarked]

end Unmarked

variable {chunks final : List UpdateFileChunk}

theorem processUpdateLine_text {movePath : Option String} (unended : atEndOfFile chunks = false)
    (text : isTextLine line = true) :
    processUpdateLine lineNumber line movePath chunks =
      .ok (movePath, editLastChunk (pushText line) chunks) := by
  obtain ⟨star, context⟩ := head?_trimEnd_text text
  rw [atEndOfFile] at unended
  unfold processUpdateLine
  simp only [unended, Bool.false_and, Bool.false_eq_true, if_false,
    stripLeading_eq_none moveToMarker '*' rfl star, ite_self,
    isChangeContext_unmarked context,
    ne_of_head? emptyChangeContextMarker rfl context,
    stripLeading_eq_none changeContextMarker '@' rfl context,
    ne_of_head? eofMarker rfl star, processTextLine_text text, Except.map]

variable {movePath finalPath : Option String}

/-- A line that is kept as text is no marker. -/
theorem Marker.not_text (unended : atEndOfFile chunks = false) (text : isTextLine line = true) :
    ¬ Marker (trimEnd line) movePath chunks finalPath final := by
  obtain ⟨star, context⟩ := head?_trimEnd_text text
  intro marks
  cases marks with
  | ignored ended =>
    rw [ended] at unended
    cases unended
  | moved _ _ stripped =>
    rw [stripLeading_eq_none moveToMarker '*' rfl star] at stripped
    cases stripped
  | opened _ bare => exact ne_of_head? emptyChangeContextMarker rfl context bare
  | openedAt _ stripped =>
    rw [stripLeading_eq_none changeContextMarker '@' rfl context] at stripped
    cases stripped
  | endOfFile _ _ shown => exact ne_of_head? eofMarker rfl star shown

/-- A marker is processed as its kind says. -/
theorem Marker.processed (marks : Marker (trimEnd line) movePath chunks finalPath final) :
    processUpdateLine lineNumber line movePath chunks = .ok (finalPath, final) := by
  unfold processUpdateLine
  cases marks with
  | ignored ended blank =>
    rw [atEndOfFile] at ended
    simp [ended, blank]
  | moved first unmoved stripped =>
    subst first unmoved
    simp [stripped]
  | opened filled bare =>
    rw [lastHasNoLines] at filled
    have unmoved : stripLeading moveToMarker emptyChangeContextMarker = none := by decide
    have context : isChangeContext emptyChangeContextMarker = true := by decide
    have nonempty : emptyChangeContextMarker ≠ "" := by decide
    simp [bare, filled, unmoved, context, nonempty]
  | openedAt filled stripped =>
    rw [lastHasNoLines] at filled
    have context : isChangeContext (trimEnd line) = true := by
      simp [isChangeContext, stripped]
    have starts : (trimEnd line).toList.head? = some '@' := by
      rw [stripLeading_eq_some.mp stripped, toList_append]
      rfl
    have unmoved : stripLeading moveToMarker (trimEnd line) = none :=
      stripLeading_eq_none moveToMarker '*' rfl (by simp [starts])
    have nonempty : trimEnd line ≠ "" := by
      intro empty
      rw [empty] at starts
      cases starts
    have longer : trimEnd line ≠ emptyChangeContextMarker := by
      intro bare
      have unmarked : stripLeading changeContextMarker emptyChangeContextMarker = none := by decide
      rw [bare, unmarked] at stripped
      cases stripped
    simp [filled, unmoved, context, nonempty, longer, stripped]
  | endOfFile filled unended shown =>
    rw [lastHasNoLines] at filled
    rw [atEndOfFile] at unended
    have unmoved : stripLeading moveToMarker eofMarker = none := by decide
    have context : isChangeContext eofMarker = false := by decide
    have other : eofMarker ≠ emptyChangeContextMarker := by decide
    have unmarked : stripLeading changeContextMarker eofMarker = none := by decide
    simp [shown, unended, filled, unmoved, context, other, unmarked]

/-- What a line of an update hunk can do. -/
theorem processUpdateLine_ok_iff :
    processUpdateLine lineNumber line movePath chunks = .ok (finalPath, final) ↔
      (atEndOfFile chunks = false ∧ isTextLine line = true ∧ finalPath = movePath ∧
          final = editLastChunk (pushText line) chunks) ∨
        Marker (trimEnd line) movePath chunks finalPath final := by
  constructor
  · intro processed
    unfold processUpdateLine at processed
    simp only at processed
    split at processed
    · rename_i ignored
      rw [Bool.and_eq_true, beq_iff_eq] at ignored
      cases processed
      exact .inr (.ignored ignored.1 ignored.2)
    split at processed
    · cases processed
    rename_i continues
    split at processed
    · rename_i moved
      cases processed
      split at moved
      · rename_i first
        rw [Bool.and_eq_true, List.isEmpty_iff, isNone_iff_eq_none] at first
        exact .inr (.moved first.1 first.2 moved)
      · cases moved
    split at processed
    · cases processed
    rename_i filled
    split at processed
    · rename_i bare
      cases processed
      refine .inr (.opened ?_ bare)
      simpa [isChangeContext, bare, lastHasNoLines] using filled
    rename_i longer
    split at processed
    · rename_i stripped
      cases processed
      refine .inr (.openedAt ?_ stripped)
      simpa [isChangeContext, stripped, lastHasNoLines] using filled
    rename_i unmarked
    have unended : atEndOfFile chunks = false := by
      simpa [isChangeContext, longer, unmarked, atEndOfFile] using continues
    split at processed
    · rename_i shown
      split at processed
      · cases processed
      rename_i lines
      cases processed
      exact .inr (.endOfFile (Bool.eq_false_iff.mpr lines) unended shown)
    · -- Only here the untrimmed line counts.
      obtain ⟨_, added, processed⟩ := bind_eq_ok_iff.mp processed
      have text := isTextLine_of_processed added
      rw [processTextLine_text text] at added
      cases added
      cases processed
      exact .inl ⟨unended, text, rfl, rfl⟩
  · rintro (⟨unended, text, rfl, rfl⟩ | marks)
    · exact processUpdateLine_text unended text
    · exact marks.processed

/-! ### Lines of a patch -/

namespace LineParser

/-- The line is kept as text of the last hunk. -/
def keepsText (parser : LineParser) (line : String) : Bool :=
  match parser.mode, parser.hunks.getLast? with
  | .addFile, some (.addFile _ _) => line.toList.head? = some '+'
  | .updateFile _, some (.updateFile _ _ chunks) => !atEndOfFile chunks && isTextLine line
  | _, _ => false

/-- The parser after a line that it keeps as text. -/
def withText (parser : LineParser) (line : String) : LineParser :=
  match parser.hunks.getLast? with
  | some (.addFile path contents) =>
    parser.replaceLast (.addFile path (contents ++ ofList line.toList.tail ++ "\n"))
  | some (.updateFile path movePath chunks) =>
    parser.replaceLast
      (.updateFile path movePath (editLastChunk (UpdateFileChunk.pushText line) chunks))
  | _ => parser

/-- The text in which a header is looked for. -/
def headerText (parser : LineParser) (trimmed trimmedEnd : String) : String :=
  match parser.mode with
  | .updateFile _ => trimmedEnd
  | _ => trimmed

/-- What a header or the end marker does to the parser. -/
inductive Headed (parser : LineParser) (trimmed : String) : LineParser → Prop
  | environment (environmentId : String) :
      Headed parser trimmed { parser with environmentId := some environmentId }
  | ended (shown : trimmed = endPatchMarker) :
      Headed parser trimmed { parser with mode := .endedPatch }
  | added (path : String) :
      Headed parser trimmed
        { parser with hunks := parser.hunks ++ [.addFile path ""], mode := .addFile }
  | deleted (path : String) :
      Headed parser trimmed
        { parser with hunks := parser.hunks ++ [.deleteFile path], mode := .deleteFile }
  | updated (path : String) :
      Headed parser trimmed
        { parser with
          hunks := parser.hunks ++ [.updateFile path none []]
          mode := .updateFile parser.lineNumber }

/-- A line that is not kept as text, by its trimmed texts. -/
inductive Marked (parser : LineParser) (trimmed trimmedEnd : String) : LineParser → Prop
  | began (mode : parser.mode = .notStarted) (shown : trimmed = beginPatchMarker) :
      Marked parser trimmed trimmedEnd { parser with mode := .startedPatch }
  | header {final : LineParser} (started : parser.mode ≠ .notStarted)
      (unended : parser.mode ≠ .endedPatch)
      (handled : parser.handleHunkHeadersAndEndPatch (parser.headerText trimmed trimmedEnd) =
        .ok (some final)) :
      Marked parser trimmed trimmedEnd final
  | marker {hunkLineNumber : Nat} {path : String} {movePath finalPath : Option String}
      {chunks final : List UpdateFileChunk} (mode : parser.mode = .updateFile hunkLineNumber)
      (ordinary : parser.handleHunkHeadersAndEndPatch trimmedEnd = .ok none)
      (last : parser.hunks.getLast? = some (.updateFile path movePath chunks))
      (marks : Marker trimmedEnd movePath chunks finalPath final) :
      Marked parser trimmed trimmedEnd (parser.replaceLast (.updateFile path finalPath final))
  | ended (mode : parser.mode = .endedPatch) (blank : trimmed = "") :
      Marked parser trimmed trimmedEnd parser

variable {parser final : LineParser} {trimmed : String}

theorem openHunk_ok {hunk : Hunk} {mode : StreamingParserMode}
    (opened : parser.openHunk trimmed hunk mode = .ok (some final)) :
    final = { parser with hunks := parser.hunks ++ [hunk], mode } := by
  rw [openHunk] at opened
  obtain ⟨_, _, opened⟩ := bind_eq_ok_iff.mp opened
  cases opened
  rfl

/-- A handled header is one of the headers. -/
theorem headed_of_handled (handled : parser.handleHunkHeadersAndEndPatch trimmed = .ok (some final)) :
    parser.Headed trimmed final := by
  unfold handleHunkHeadersAndEndPatch at handled
  split at handled
  · split at handled
    · cases handled
    split at handled
    · cases handled
    cases handled
    exact .environment _
  split at handled
  · rename_i shown
    obtain ⟨_, _, handled⟩ := bind_eq_ok_iff.mp handled
    cases handled
    exact .ended shown
  split at handled
  · rw [openHunk_ok handled]
    exact .added _
  split at handled
  · rw [openHunk_ok handled]
    exact .deleted _
  split at handled
  · rw [openHunk_ok handled]
    exact .updated _
  · cases handled

/-- Every header starts with a star. -/
theorem handleHunkHeadersAndEndPatch_unmarked (unmarked : trimmed.toList.head? ≠ some '*') :
    parser.handleHunkHeadersAndEndPatch trimmed = .ok none := by
  unfold handleHunkHeadersAndEndPatch
  rw [stripLeading_eq_none environmentIdMarker '*' rfl unmarked, ite_self,
    stripLeading_eq_none addFileMarker '*' rfl unmarked,
    stripLeading_eq_none deleteFileMarker '*' rfl unmarked,
    stripLeading_eq_none updateFileMarker '*' rfl unmarked]
  exact if_neg (ne_of_head? endPatchMarker rfl unmarked)

/-- A line that is kept as text is no header. -/
theorem handleHunkHeadersAndEndPatch_text (kept : parser.keepsText line = true) :
    parser.handleHunkHeadersAndEndPatch (parser.headerText (trim line) (trimEnd line)) = .ok none := by
  apply handleHunkHeadersAndEndPatch_unmarked
  unfold keepsText at kept
  split at kept
  · rename_i mode last
    have starts := of_decide_eq_true kept
    rw [headerText, mode]
    simp only
    rw [trim_eq_trimEnd starts (by decide)]
    intro star
    rw [head?_trimEnd star] at starts
    cases starts
  · rename_i mode last
    rw [Bool.and_eq_true] at kept
    rw [headerText, mode]
    exact (head?_trimEnd_text kept.2).1
  · cases kept

theorem not_marked_of_keepsText (kept : parser.keepsText line = true) :
    ¬ parser.Marked (trim line) (trimEnd line) final := by
  have unmarked := handleHunkHeadersAndEndPatch_text kept
  intro marked
  cases marked with
  | began mode | ended mode => simp [keepsText, mode] at kept
  | header _ _ handled =>
    rw [unmarked] at handled
    cases handled
  | marker mode _ last marks =>
    simp only [keepsText, mode, last, Bool.and_eq_true, Bool.not_eq_true'] at kept
    exact Marker.not_text kept.1 kept.2 marks

theorem headerOr_ok_iff {other : Except ParseError LineParser} :
    parser.headerOr trimmed other = .ok final ↔
      parser.handleHunkHeadersAndEndPatch trimmed = .ok (some final) ∨
        parser.handleHunkHeadersAndEndPatch trimmed = .ok none ∧ other = .ok final := by
  rw [headerOr]
  cases parser.handleHunkHeadersAndEndPatch trimmed with
  | error => simp
  | ok result =>
    cases result with
    | none | some => simp

theorem processAddLine_ok_iff : parser.processAddLine line = .ok final ↔
    line.toList.head? = some '+' ∧ ∃ path contents,
      parser.hunks.getLast? = some (.addFile path contents) ∧
      final = parser.replaceLast (.addFile path (contents ++ ofList line.toList.tail ++ "\n")) := by
  obtain ⟨chars, rfl⟩ : ∃ chars, line = ofList chars :=
    ⟨line.toList, ofList_toList.symm⟩
  rw [processAddLine, toList_ofList]
  by_cases added : chars.head? = some '+'
  · obtain ⟨_, rfl⟩ := head?_eq_some_iff.mp added
    rw [show ("+" : String) = ofList ['+'] from rfl, stripLeading_sign]
    cases last : parser.hunks.getLast? with
    | none => simp [invalidHeader]
    | some hunk =>
      cases hunk with
      | addFile => simp [eq_comm]
      | deleteFile | updateFile => simp [invalidHeader]
  · rw [stripLeading_eq_none "+" '+' rfl (by simpa using added)]
    simp [invalidHeader, added]

theorem processUpdateMode_ok_iff : parser.processUpdateMode line = .ok final ↔
    ∃ path movePath chunks, parser.hunks.getLast? = some (.updateFile path movePath chunks) ∧
      ∃ finalPath finalChunks, processUpdateLine parser.lineNumber line movePath chunks =
          .ok (finalPath, finalChunks) ∧
        final = parser.replaceLast (.updateFile path finalPath finalChunks) := by
  rw [processUpdateMode]
  cases last : parser.hunks.getLast? with
  | none => simp
  | some hunk =>
    cases hunk with
    | addFile | deleteFile => simp
    | updateFile _ movePath chunks =>
      cases updated : processUpdateLine parser.lineNumber line movePath chunks with
      | error => simp [updated, Except.map]
      | ok => simp [updated, Except.map, Prod.ext_iff, eq_comm, and_assoc]

/-- While a patch is open, a header is looked for first. -/
theorem processLine_open (parser : LineParser) (line : String)
    (started : parser.mode ≠ .notStarted) (unended : parser.mode ≠ .endedPatch) :
    ∃ other, parser.processLine line =
      parser.headerOr (parser.headerText (trim line) (trimEnd line)) other := by
  unfold processLine headerText
  cases mode : parser.mode with
  | notStarted | endedPatch => contradiction
  | _ => exact ⟨_, rfl⟩

theorem processLine_text (kept : parser.keepsText line = true) :
    parser.processLine line = .ok (parser.withText line) := by
  have unmarked := handleHunkHeadersAndEndPatch_text kept
  unfold keepsText at kept
  split at kept
  · rename_i mode last
    rw [headerText, mode] at unmarked
    rw [processLine, mode]
    refine headerOr_ok_iff.mpr (.inr ⟨unmarked, ?_⟩)
    refine processAddLine_ok_iff.mpr ⟨of_decide_eq_true kept, _, _, last, ?_⟩
    rw [withText, last]
  · rename_i mode last
    rw [Bool.and_eq_true, Bool.not_eq_true'] at kept
    rw [headerText, mode] at unmarked
    rw [processLine, mode]
    refine headerOr_ok_iff.mpr (.inr ⟨unmarked, ?_⟩)
    refine processUpdateMode_ok_iff.mpr ⟨_, _, _, last, _, _, processUpdateLine_text kept.1 kept.2, ?_⟩
    rw [withText, last]
  · cases kept

theorem Marked.processed (marked : parser.Marked (trim line) (trimEnd line) final) :
    parser.processLine line = .ok final := by
  cases marked with
  | began mode shown => rw [processLine, mode, shown, if_pos rfl]
  | header started unended handled =>
    obtain ⟨_, whole⟩ := parser.processLine_open line started unended
    rw [whole]
    exact headerOr_ok_iff.mpr (.inl handled)
  | marker mode ordinary last marks =>
    rw [processLine, mode]
    refine headerOr_ok_iff.mpr (.inr ⟨ordinary, ?_⟩)
    exact processUpdateMode_ok_iff.mpr ⟨_, _, _, last, _, _, marks.processed, rfl⟩
  | ended mode blank => rw [processLine, mode, blank, if_pos rfl]

/-- What one line can do. -/
theorem processLine_ok_iff : parser.processLine line = .ok final ↔
    (parser.keepsText line = true ∧ final = parser.withText line) ∨
      parser.Marked (trim line) (trimEnd line) final := by
  constructor
  · intro processed
    unfold processLine at processed
    split at processed
    · rename_i mode
      split at processed
      · rename_i shown
        cases processed
        exact .inr (.began mode shown)
      · cases processed
    · rename_i mode
      rcases headerOr_ok_iff.mp processed with _ | ⟨_, invalid⟩
      · exact .inr (.header (by simp [mode]) (by simp [mode]) (by rwa [headerText, mode]))
      · contradiction
    · rename_i mode
      rcases headerOr_ok_iff.mp processed with _ | ⟨_, added⟩
      · exact .inr (.header (by simp [mode]) (by simp [mode]) (by rwa [headerText, mode]))
      · obtain ⟨sign, _, _, last, rfl⟩ := processAddLine_ok_iff.mp added
        refine .inl ⟨?_, ?_⟩
        · simp [keepsText, mode, last, sign]
        · simp [withText, last]
    · rename_i mode
      rcases headerOr_ok_iff.mp processed with _ | ⟨_, invalid⟩
      · exact .inr (.header (by simp [mode]) (by simp [mode]) (by rwa [headerText, mode]))
      · contradiction
    · rename_i mode
      rcases headerOr_ok_iff.mp processed with _ | ⟨ordinary, updated⟩
      · exact .inr (.header (by simp [mode]) (by simp [mode]) (by rwa [headerText, mode]))
      · obtain ⟨_, _, _, last, _, _, changed, rfl⟩ :=
          processUpdateMode_ok_iff.mp updated
        rcases processUpdateLine_ok_iff.mp changed with ⟨unended, text, rfl, rfl⟩ | marks
        · refine .inl ⟨?_, ?_⟩
          · simp [keepsText, mode, last, unended, text]
          · simp [withText, last]
        · exact .inr (.marker mode ordinary last marks)
    · rename_i mode
      split at processed
      · rename_i blank
        cases processed
        exact .inr (.ended mode blank)
      · cases processed
  · rintro (⟨kept, rfl⟩ | marked)
    · exact processLine_text kept
    · exact marked.processed

end LineParser

end WeaveCodex.ApplyPatch
