/-
Purpose: Two parsers whose hunks differ only in their texts stay so on lines that differ
  only in trailing carriage returns, and every carriage return that is kept as text is one
  more character.
-/
import Mathlib.Algebra.GroupWithZero.Nat
import WeaveCodex.ApplyPatch.Proofs.LineKinds

namespace WeaveCodex.ApplyPatch

open UpdateFileChunk List String
open Option (map_eq_none_iff map_eq_some_iff map_none map_some)

/-! ### Chunks -/

namespace UpdateFileChunk

variable (chunk : UpdateFileChunk)

/-- The chunk without the texts of its lines. -/
def shape : UpdateFileChunk :=
  { chunk with
    oldLines := chunk.oldLines.map fun _ => ""
    newLines := chunk.newLines.map fun _ => "" }

/-- The number of characters in the lines. -/
def weight : Nat :=
  (chunk.oldLines.map String.length).sum + (chunk.newLines.map String.length).sum

@[simp] theorem isEndOfFile_shape :
    chunk.shape.isEndOfFile = chunk.isEndOfFile :=
  rfl

@[simp] theorem hasNoLines_shape :
    chunk.shape.hasNoLines = chunk.hasNoLines := by
  cases old : chunk.oldLines with
  | nil =>
    cases new : chunk.newLines with
    | nil | cons => simp [hasNoLines, shape, old, new]
  | cons => simp [hasNoLines, shape, old]

/-- The characters that a text line adds to a chunk. -/
def textWeight (line : String) : Nat :=
  match line.toList with
  | [] => 0
  | sign :: text => if sign = '+' ∨ sign = '-' then text.length else 2 * text.length

theorem weight_pushText (line : String) (chunk : UpdateFileChunk) :
    (pushText line chunk).weight = chunk.weight + textWeight line := by
  unfold pushText textWeight
  cases line.toList with
  | nil => simp [pushContextLine, weight]
  | cons sign =>
    by_cases added : sign = '+'
    · simp [added, pushNewLine, weight]
      omega
    by_cases removed : sign = '-'
    · simp [removed, pushOldLine, weight]
      omega
    simp [added, removed, pushContextLine, weight]
    omega

@[simp] theorem shape_shape : chunk.shape.shape = chunk.shape := by
  simp [shape]

/-- Of a text line, the shape keeps only the sign. -/
theorem shape_pushText {line other : String} (signs : line.toList.head? = other.toList.head?) :
    (pushText line chunk).shape = (pushText other chunk.shape).shape := by
  unfold pushText
  cases chars : line.toList with
  | nil =>
    rw [chars, head?_nil, eq_comm, head?_eq_none_iff] at signs
    simp [signs, pushContextLine, shape]
  | cons =>
    rw [chars, head?_cons, eq_comm, head?_eq_some_iff] at signs
    obtain ⟨_, signs⟩ := signs
    simp only [signs]
    split
    · simp [pushNewLine, shape]
    split
    · simp [pushOldLine, shape]
    · simp [pushContextLine, shape]

end UpdateFileChunk

section Chunks

variable {chunks alike : List UpdateFileChunk}

@[simp] theorem atEndOfFile_shape :
    atEndOfFile (chunks.map shape) = atEndOfFile chunks := by
  simp [atEndOfFile, getLast?_map, Option.any_map]

@[simp] theorem lastHasNoLines_shape :
    lastHasNoLines (chunks.map shape) = lastHasNoLines chunks := by
  simp [lastHasNoLines, getLast?_map, Option.any_map]

/-- The sum over a list, by its last element. -/
theorem sum_map_getLast {α : Type*} {items : List α} {last : α} (present : items.getLast? = some last)
    (weight : α → Nat) :
    (items.map weight).sum = (items.dropLast.map weight).sum + weight last := by
  obtain ⟨_, rfl⟩ := getLast?_eq_some_iff.mp present
  simp

theorem weight_editLastChunk (line : String) :
    ((editLastChunk (pushText line) chunks).map UpdateFileChunk.weight).sum =
      (chunks.map UpdateFileChunk.weight).sum + textWeight line := by
  rw [editLastChunk]
  cases last : chunks.getLast? with
  | none =>
    rw [getLast?_eq_none_iff.mp last]
    simp [weight_pushText, show UpdateFileChunk.empty.weight = 0 from rfl]
  | some =>
    rw [sum_map_getLast last]
    simp [weight_pushText]
    omega

theorem shape_editLastChunk {line other : String} (signs : line.toList.head? = other.toList.head?) :
    (editLastChunk (pushText line) chunks).map shape =
      (editLastChunk (pushText other) (chunks.map shape)).map shape := by
  rw [editLastChunk, editLastChunk, getLast?_map]
  cases chunks.getLast? with
  | none => simp [shape_pushText _ signs, show empty.shape = empty from rfl]
  | some => simp [shape_pushText _ signs, ← map_dropLast]

theorem shape_markEndOfFile :
    (markEndOfFile chunks).map shape = markEndOfFile (chunks.map shape) := by
  rw [markEndOfFile, markEndOfFile, getLast?_map]
  cases chunks.getLast? with
  | none => rfl
  | some => simp [shape, ← map_dropLast]

variable (shapes : chunks.map UpdateFileChunk.shape = alike.map UpdateFileChunk.shape)

include shapes

/-- A marker acts on chunks of the same shape alike. -/
theorem Marker.of_shape {updateLine : String} {movePath finalPath : Option String}
    {final : List UpdateFileChunk} (marks : Marker updateLine movePath chunks finalPath final) :
    ∃ other, Marker updateLine movePath alike finalPath other ∧ final.map shape = other.map shape := by
  have ends : atEndOfFile chunks = atEndOfFile alike := by
    rw [← atEndOfFile_shape, shapes, atEndOfFile_shape]
  have lines : lastHasNoLines chunks = lastHasNoLines alike := by
    rw [← lastHasNoLines_shape, shapes, lastHasNoLines_shape]
  cases marks with
  | ignored ended blank => exact ⟨alike, .ignored (ends ▸ ended) blank, shapes⟩
  | moved first unmoved stripped =>
    rw [first, map_nil, eq_comm, map_eq_nil_iff] at shapes
    subst first shapes
    exact ⟨[], .moved rfl unmoved stripped, rfl⟩
  | opened filled bare =>
    refine ⟨_, .opened (lines ▸ filled) bare, ?_⟩
    rw [map_append, map_append, shapes]
  | openedAt filled stripped =>
    refine ⟨_, .openedAt (lines ▸ filled) stripped, ?_⟩
    rw [map_append, map_append, shapes]
  | endOfFile filled unended shown =>
    exact ⟨_, .endOfFile (lines ▸ filled) (ends ▸ unended) shown, by
      rw [shape_markEndOfFile, shapes, shape_markEndOfFile]⟩

end Chunks

theorem Marker.weight {updateLine : String} {movePath finalPath : Option String}
    {chunks final : List UpdateFileChunk}
    (marks : Marker updateLine movePath chunks finalPath final) :
    (final.map UpdateFileChunk.weight).sum = (chunks.map UpdateFileChunk.weight).sum := by
  cases marks with
  | ignored | moved => rfl
  | opened | openedAt =>
    simp [UpdateFileChunk.weight, UpdateFileChunk.empty]
  | endOfFile =>
    rw [markEndOfFile]
    cases last : chunks.getLast? with
    | none => rfl
    | some =>
      rw [sum_map_getLast last]
      simp [UpdateFileChunk.weight]

/-! ### Hunks -/

namespace Hunk

/-- The hunk without its texts. -/
def shape : Hunk → Hunk
  | .addFile path _ => .addFile path ""
  | .deleteFile path => .deleteFile path
  | .updateFile path movePath chunks =>
    .updateFile path movePath (chunks.map UpdateFileChunk.shape)

/-- The number of characters in the texts. -/
def weight : Hunk → Nat
  | .addFile _ contents => contents.length
  | .deleteFile _ => 0
  | .updateFile _ _ chunks => (chunks.map UpdateFileChunk.weight).sum

@[simp] theorem shape_shape (hunk : Hunk) : hunk.shape.shape = hunk.shape := by
  cases hunk <;> simp [shape]

end Hunk

/-! ### Parsers -/

namespace LineParser

def shape (parser : LineParser) : LineParser :=
  { parser with hunks := parser.hunks.map Hunk.shape }

def weight (parser : LineParser) : Nat :=
  (parser.hunks.map Hunk.weight).sum

variable {parser alike final : LineParser} {hunk : Hunk} {trimmed : String}

theorem weight_replaceLast {last : Hunk} (present : parser.hunks.getLast? = some last) (added : Nat)
    (grows : hunk.weight = last.weight + added) :
    (parser.replaceLast hunk).weight = parser.weight + added := by
  rw [weight, weight, sum_map_getLast present, replaceLast]
  simp [grows]
  omega

/-- The characters that a kept line adds. -/
def textWeight (parser : LineParser) (line : String) : Nat :=
  match parser.mode with
  | .addFile => line.length
  | _ => UpdateFileChunk.textWeight line

theorem weight_withText {line : String} (kept : parser.keepsText line = true) :
    (parser.withText line).weight = parser.weight + parser.textWeight line := by
  unfold keepsText at kept
  split at kept
  · rename_i mode last
    obtain ⟨_, chars⟩ := head?_eq_some_iff.mp (of_decide_eq_true kept)
    rw [withText, last]
    apply weight_replaceLast last _
    rw [textWeight, mode]
    simp [Hunk.weight, ← length_toList, chars]
  · rename_i mode last
    rw [withText, last]
    apply weight_replaceLast last _
    rw [textWeight, mode, Hunk.weight, weight_editLastChunk, Hunk.weight]
  · cases kept

theorem Headed.weight (headed : parser.Headed trimmed final) : final.weight = parser.weight := by
  cases headed with
  | environment | ended => rfl
  | _ => simp [LineParser.weight, Hunk.weight]

theorem Marked.weight {trimmedEnd : String} (marked : parser.Marked trimmed trimmedEnd final) :
    final.weight = parser.weight := by
  cases marked with
  | began => rfl
  | header _ _ handled => exact (headed_of_handled handled).weight
  | marker _ _ last marks => exact weight_replaceLast last 0 marks.weight
  | ended => rfl

/-! ### Parsers of the same shape -/

@[simp] theorem environmentId_shape : parser.shape.environmentId = parser.environmentId :=
  rfl

theorem ensureUpdateHunkIsNotEmpty_shape (line : String) :
    parser.shape.ensureUpdateHunkIsNotEmpty line = parser.ensureUpdateHunkIsNotEmpty line := by
  unfold ensureUpdateHunkIsNotEmpty shape
  cases last : parser.hunks.getLast? with
  | none => simp [last]
  | some hunk =>
    cases hunk with
    | addFile | deleteFile => simp [last, Hunk.shape]
    | updateFile _ _ chunks =>
      cases lastChunk : chunks.getLast? with
      | none | some => simp [last, Hunk.shape, lastChunk]

theorem getLast?_shape :
    parser.shape.hunks.getLast? = parser.hunks.getLast?.map Hunk.shape :=
  getLast?_map

theorem keepsText_shape (line : String) : parser.shape.keepsText line = parser.keepsText line := by
  rw [keepsText, keepsText, getLast?_shape, show parser.shape.mode = parser.mode from rfl]
  cases parser.hunks.getLast? with
  | none => rfl
  | some hunk => cases hunk <;> cases parser.mode <;> simp [Hunk.shape]

@[simp] theorem shape_shape : parser.shape.shape = parser.shape := by
  simp [shape]

theorem shape_replaceLast : (parser.replaceLast hunk).shape = parser.shape.replaceLast hunk.shape := by
  simp [shape, replaceLast]

/-- Of a kept line, the shape keeps only the sign. -/
theorem shape_withText {line other : String} (signs : line.toList.head? = other.toList.head?) :
    (parser.withText line).shape = (parser.shape.withText other).shape := by
  rw [withText, withText, getLast?_shape]
  cases parser.hunks.getLast? with
  | none => simp
  | some hunk => cases hunk <;> simp [Hunk.shape, shape_replaceLast, shape_editLastChunk signs]

theorem openHunk_shape {mode : StreamingParserMode} (empty : hunk.shape = hunk) :
    parser.shape.openHunk trimmed hunk mode =
      (parser.openHunk trimmed hunk mode).map (Option.map shape) := by
  rw [openHunk, openHunk, ensureUpdateHunkIsNotEmpty_shape]
  cases parser.ensureUpdateHunkIsNotEmpty trimmed with
  | error => rfl
  | ok => simp [Except.map, shape, empty]

/-- How a header is handled depends on the shape of the parser alone. -/
theorem handleHunkHeadersAndEndPatch_shape (parser : LineParser) (trimmed : String) :
    parser.shape.handleHunkHeadersAndEndPatch trimmed =
      (parser.handleHunkHeadersAndEndPatch trimmed).map (Option.map shape) := by
  have environment :
      (if parser.shape.mode = .startedPatch then stripLeading environmentIdMarker trimmed else none) =
        if parser.mode = .startedPatch then stripLeading environmentIdMarker trimmed else none :=
    rfl
  unfold handleHunkHeadersAndEndPatch
  rw [environment, ensureUpdateHunkIsNotEmpty_shape]
  cases if parser.mode = .startedPatch then stripLeading environmentIdMarker trimmed else none with
  | some environmentId =>
    by_cases given : parser.environmentId.isSome = true
    · simp [given, Except.map]
    by_cases blank : trim environmentId = ""
    · simp [given, blank, Except.map]
    simp [given, blank, Except.map, shape]
  | none =>
    by_cases ends : trimmed = endPatchMarker
    · simp only [if_pos ends]
      cases parser.ensureUpdateHunkIsNotEmpty trimmed with
      | error | ok => rfl
    simp only [if_neg ends]
    cases stripLeading addFileMarker trimmed with
    | some => exact openHunk_shape rfl
    | none =>
      cases stripLeading deleteFileMarker trimmed with
      | some => exact openHunk_shape rfl
      | none =>
        cases stripLeading updateFileMarker trimmed with
        | some => exact openHunk_shape rfl
        | none => rfl

section Alike

variable (shapes : parser.shape = alike.shape)

include shapes

theorem mode_alike : parser.mode = alike.mode :=
  congrArg (fun parser => parser.mode) shapes

theorem numbered_alike : shape { parser with lineNumber := parser.lineNumber + 1 } =
    shape { alike with lineNumber := alike.lineNumber + 1 } := by
  simp only [shape, mk.injEq] at shapes
  simp [shape, shapes]

variable {line : String}

theorem handled_alike {result : Option LineParser}
    (handled : parser.handleHunkHeadersAndEndPatch trimmed = .ok result) :
    ∃ other, alike.handleHunkHeadersAndEndPatch trimmed = .ok other ∧
      result.map shape = other.map shape := by
  have same := parser.handleHunkHeadersAndEndPatch_shape trimmed
  rw [shapes, handleHunkHeadersAndEndPatch_shape, handled] at same
  cases alikeHandled : alike.handleHunkHeadersAndEndPatch trimmed with
  | error =>
    rw [alikeHandled] at same
    cases same
  | ok other =>
    rw [alikeHandled] at same
    exact ⟨other, rfl, (Except.ok.inj same).symm⟩

theorem last_alike {last : Hunk} (present : parser.hunks.getLast? = some last) :
    ∃ other, alike.hunks.getLast? = some other ∧ other.shape = last.shape := by
  have lasts := congrArg (fun parser => parser.hunks.getLast?) shapes
  simp only [shape, getLast?_map] at lasts
  rw [present, map_some, eq_comm, map_eq_some_iff] at lasts
  exact lasts

/-- What is no text acts on parsers of the same shape alike. -/
theorem Marked.of_shape {trimmedEnd : String} (marked : parser.Marked trimmed trimmedEnd final) :
    ∃ other, alike.Marked trimmed trimmedEnd other ∧ final.shape = other.shape := by
  have modes := mode_alike shapes
  cases marked with
  | began mode shown =>
    refine ⟨_, .began (modes ▸ mode) shown, ?_⟩
    simp only [shape, mk.injEq] at shapes
    simp [shape, shapes]
  | header started unended handled =>
    obtain ⟨_, other, same⟩ := handled_alike shapes handled
    rw [map_some, eq_comm, map_eq_some_iff] at same
    obtain ⟨opened, rfl, same⟩ := same
    refine ⟨opened, .header (modes ▸ started) (modes ▸ unended) ?_, same.symm⟩
    rw [← other, headerText, headerText, modes]
  | marker mode ordinary last marks =>
    obtain ⟨_, other, same⟩ := handled_alike shapes ordinary
    rw [map_none, eq_comm, map_eq_none_iff] at same
    obtain ⟨hunk, present, sameHunk⟩ := last_alike shapes last
    cases hunk with
    | addFile | deleteFile => cases sameHunk
    | updateFile =>
      simp only [Hunk.shape, Hunk.updateFile.injEq] at sameHunk
      obtain ⟨rfl, rfl, sameChunks⟩ := sameHunk
      obtain ⟨_, otherMarks, sameFinal⟩ := marks.of_shape sameChunks.symm
      refine ⟨_, .marker (modes ▸ mode) (same ▸ other) present otherMarks, ?_⟩
      simp [shape_replaceLast, shapes, Hunk.shape, sameFinal]
  | ended mode blank => exact ⟨alike, .ended (modes ▸ mode) blank, shapes⟩

end Alike

/-! ### Lines with trailing carriage returns -/

theorem textWeight_returns (parser : LineParser) {text tail : List Char}
    (same : (text ++ tail).head? = text.head?) :
    parser.textWeight (ofList text) + tail.length ≤ parser.textWeight (ofList (text ++ tail)) := by
  unfold textWeight
  split
  · simp
  · cases text with
    | nil =>
      rw [nil_append, head?_nil, head?_eq_none_iff] at same
      simp [same]
    | cons =>
      simp only [UpdateFileChunk.textWeight, toList_ofList, cons_append]
      split
      · simp
      · simp
        omega

section Returns

variable {text tail : List Char} (returns : ∀ char ∈ tail, char = '\r')

include returns

theorem head?_returns {sign : Char} (visible : sign ≠ '\r')
    (starts : (text ++ tail).head? = some sign) : text.head? = some sign := by
  cases text with
  | cons => exact starts
  | nil =>
    rw [nil_append] at starts
    exact absurd (returns sign (mem_of_head? starts)) visible

/-- A line that is kept has its text before the carriage returns. -/
theorem keepsText_returns (kept : parser.keepsText (ofList (text ++ tail)) = true) :
    parser.keepsText (ofList text) = true ∧ (text ++ tail).head? = text.head? := by
  unfold keepsText at kept ⊢
  split at kept
  · rw [decide_eq_true_eq, toList_ofList] at kept
    have starts := head?_returns returns (by decide) kept
    rw [decide_eq_true_eq, toList_ofList]
    exact ⟨starts, kept.trans starts.symm⟩
  · rw [Bool.and_eq_true, isTextLine, toList_ofList] at kept
    rw [Bool.and_eq_true, isTextLine, toList_ofList]
    have heads : (text ++ tail).head? = text.head? := by
      cases starts : (text ++ tail).head? with
      | none =>
        rw [head?_eq_none_iff, append_eq_nil_iff] at starts
        rw [starts.1, head?_nil]
      | some =>
        rw [head?_returns returns _ starts]
        rintro rfl
        rw [starts] at kept
        exact absurd kept.2 (by decide)
    exact ⟨heads ▸ kept, heads⟩
  · cases kept

/-- A line with carriage returns at its end, and the line without them, on parsers of the
same shape. -/
theorem processLine_alike (shapes : parser.shape = alike.shape)
    (processed : parser.processLine (ofList (text ++ tail)) = .ok final) :
    ∃ other, alike.processLine (ofList text) = .ok other ∧ final.shape = other.shape ∧
      other.weight + parser.weight + (if parser.keepsText (ofList text) then tail.length else 0) ≤
        final.weight + alike.weight := by
  rcases processLine_ok_iff.mp processed with ⟨kept, rfl⟩ | marked
  · obtain ⟨keptText, heads⟩ := keepsText_returns returns kept
    have alikeKept : alike.keepsText (ofList text) = true := by
      rw [← keepsText_shape, ← shapes, keepsText_shape, keptText]
    refine ⟨alike.withText (ofList text), ?_, ?_, ?_⟩
    · exact processLine_ok_iff.mpr (.inl ⟨alikeKept, rfl⟩)
    · have signs : (ofList (text ++ tail)).toList.head? = (ofList text).toList.head? := by
        simpa using heads
      rw [shape_withText signs, shapes, ← shape_withText rfl]
    · have grows := parser.textWeight_returns heads
      have modes : alike.textWeight = parser.textWeight := by
        unfold textWeight
        rw [mode_alike shapes]
      rw [if_pos keptText, weight_withText kept, weight_withText alikeKept, modes]
      omega
  · rw [trim_returns returns, trimEnd_returns returns] at marked
    obtain ⟨other, otherMarked, same⟩ := marked.of_shape shapes
    refine ⟨other, processLine_ok_iff.mpr (.inr otherMarked), same, ?_⟩
    have unkept : ¬ parser.keepsText (ofList text) = true := fun kept =>
      not_marked_of_keepsText kept marked
    rw [if_neg unkept, marked.weight, otherMarked.weight]
    omega

end Returns

end LineParser

end WeaveCodex.ApplyPatch
