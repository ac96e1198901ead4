/-
Purpose: An update that preserves line endings: its replacements are in order, and outside of
  them every line keeps its text and its ending.  A chunk becomes its added lines between its
  context lines, unless it is found only without its final empty line and loses another one.
-/
import Mathlib.Data.List.TakeDrop
import WeaveCodex.ApplyPatch.Proofs.LineKinds
import WeaveCodex.ApplyPatch.Proofs.ReplacedBlocks

namespace WeaveCodex.ApplyPatch

open List UpdateFileChunk SourceFile Nat

universe u

variable {α : Type u} {path : String} {index : Nat} {chunk : UpdateFileChunk}
  {chunks : List UpdateFileChunk} {pattern newSlice : List String} {contexts : List (Nat × Nat)}

/-! ### Parsed chunks -/

/-- The context lines are in the same order on both sides. -/
structure InStep (oldLines newLines : List String) (contexts : List (Nat × Nat)) : Prop where
  increasing : contexts.Pairwise fun first second => first.1 < second.1 ∧ first.2 < second.2
  within : ∀ context ∈ contexts, context.1 < oldLines.length ∧ context.2 < newLines.length

/-- The context lines are in step and have one text on both sides. -/
structure UpdateFileChunk.Aligned (chunk : UpdateFileChunk) : Prop
    extends InStep chunk.oldLines chunk.newLines chunk.contextLineIndices where
  same : ∀ context ∈ chunk.contextLineIndices,
    chunk.oldLines[context.1]? = chunk.newLines[context.2]?

theorem aligned_empty (changeContext : Option String) :
    Aligned { UpdateFileChunk.empty with changeContext } :=
  ⟨⟨.nil, by simp [UpdateFileChunk.empty]⟩, by simp [UpdateFileChunk.empty]⟩

/-- Lines behind the old ones and behind the new ones change no context line. -/
theorem UpdateFileChunk.Aligned.append (aligned : chunk.Aligned) (oldLines newLines : List String) :
    Aligned { chunk with
      oldLines := chunk.oldLines ++ oldLines, newLines := chunk.newLines ++ newLines } := by
  refine ⟨⟨aligned.increasing, fun context mem => ?_⟩, fun context mem => ?_⟩
  · have := aligned.within context mem
    simp only [length_append]
    omega
  · obtain ⟨old, new⟩ := aligned.within context mem
    rw [getElem?_append_left old, getElem?_append_left new]
    exact aligned.same context mem

theorem UpdateFileChunk.Aligned.pushText (aligned : chunk.Aligned) (line : String) :
    (pushText line chunk).Aligned := by
  have context (text : String) : (pushContextLine text chunk).Aligned := by
    have longer := aligned.append [text] [text]
    refine ⟨⟨pairwise_append.mpr ⟨aligned.increasing, pairwise_singleton _ _, ?_⟩,
      forall_mem_append.mpr ⟨longer.within, by simp [pushContextLine]⟩⟩,
      forall_mem_append.mpr ⟨longer.same, by simp [pushContextLine]⟩⟩
    intro first mem second last
    rw [mem_singleton.mp last]
    exact aligned.within first mem
  unfold UpdateFileChunk.pushText
  cases line.toList with
  | nil => exact context _
  | cons =>
    dsimp only
    split
    · simpa [pushNewLine] using aligned.append [] [_]
    split
    · simpa [pushOldLine] using aligned.append [_] []
    · exact context _

/-- The parser makes only aligned chunks. -/
theorem aligned_processUpdateLine {lineNumber : Nat} {line : String}
    {movePath finalPath : Option String} {final : List UpdateFileChunk}
    (aligned : ∀ chunk ∈ chunks, chunk.Aligned)
    (processed : processUpdateLine lineNumber line movePath chunks = .ok (finalPath, final)) :
    ∀ chunk ∈ final, chunk.Aligned := by
  have edited (last edited : UpdateFileChunk) (is : chunks.getLast? = some last)
      (keeps : last.Aligned → edited.Aligned) :
      ∀ chunk ∈ chunks.dropLast ++ [edited], chunk.Aligned :=
    forall_mem_append.mpr ⟨fun chunk mem => aligned chunk ((dropLast_sublist _).mem mem),
      forall_mem_singleton.mpr (keeps (aligned last (mem_of_getLast? is)))⟩
  rcases processUpdateLine_ok_iff.mp processed with ⟨_, _, _, rfl⟩ | marks
  · rw [editLastChunk]
    split
    · exact forall_mem_singleton.mpr ((aligned_empty none).pushText line)
    · rename_i last is
      exact edited last _ is fun aligned => aligned.pushText line
  cases marks with
  | ignored | moved => exact aligned
  | opened | openedAt =>
    exact forall_mem_append.mpr ⟨aligned, forall_mem_singleton.mpr (aligned_empty _)⟩
  | endOfFile =>
    rw [markEndOfFile]
    split
    · exact aligned
    · rename_i last is
      exact edited last _ is fun aligned => ⟨aligned.toInStep, aligned.same⟩

/-! ### Pieces -/

/-- The new lines, with the source's own lines for the context lines. -/
def merged (written : String → α) (block : List α) (newLines : List String) (newStart : Nat) :
    List (Nat × Nat) → List α
  | [] => (newLines.drop newStart).map written
  | (oldContext, newContext) :: later =>
    ((newLines.take newContext).drop newStart).map written ++ (block[oldContext]?.toList ++
      merged written block newLines (newContext + 1) later)

theorem spliced_succ (written : String → α) {lines : List α} {replacements : List Replacement}
    (inside : index < lines.length)
    (after : ∀ replacement ∈ replacements, index < replacement.start) :
    spliced written lines index replacements =
      lines[index]?.toList ++ spliced written lines (index + 1) replacements := by
  have first : lines.drop index = lines[index]?.toList ++ lines.drop (index + 1) := by
    rw [drop_eq_getElem_cons inside, getElem?_eq_getElem inside]
    rfl
  cases replacements with
  | nil => exact first
  | cons replacement =>
    have behind := after replacement mem_cons_self
    have more : replacement.start - index = replacement.start - (index + 1) + 1 := by omega
    rw [spliced, spliced, first, more, getElem?_eq_getElem inside]
    rfl

/-- Where the pieces of a located chunk lie. -/
theorem piecesFrom_placed (index oldStart newStart : Nat)
    (aligned : InStep pattern newSlice contexts) (starts : oldStart ≤ pattern.length)
    (behind : ∀ context ∈ contexts, oldStart ≤ context.1) :
    (piecesFrom index pattern newSlice oldStart newStart contexts).Pairwise Replacement.Before ∧
      ∀ piece ∈ piecesFrom index pattern newSlice oldStart newStart contexts,
        index + oldStart ≤ piece.start ∧ piece.stop ≤ index + pattern.length := by
  induction contexts generalizing oldStart newStart with
  | nil =>
    rw [piecesFrom, lastPiece]
    split
    · refine ⟨pairwise_singleton _ _, forall_mem_singleton.mpr ⟨le_rfl, ?_⟩⟩
      simp only [Replacement.stop]
      omega
    · exact ⟨.nil, by simp⟩
  | cons context _ ih =>
    obtain ⟨later, increasing⟩ := pairwise_cons.mp aligned.increasing
    obtain ⟨within, withins⟩ := forall_mem_cons.mp aligned.within
    have above := behind context mem_cons_self
    obtain ⟨ordered, bounds⟩ := ih (context.1 + 1) (context.2 + 1)
      ⟨increasing, withins⟩ within.1 fun other mem => (later other mem).1
    rw [piecesFrom, if_neg (by omega)]
    split
    · refine ⟨pairwise_cons.mpr ⟨fun piece mem => ?_, ordered⟩,
        forall_mem_cons.mpr ⟨⟨le_rfl, ?_⟩, fun piece mem => ?_⟩⟩
      · have := bounds piece mem
        simp only [Replacement.Before, Replacement.stop]
        omega
      · simp only [Replacement.stop]
        omega
      · have := bounds piece mem
        omega
    · refine ⟨ordered, fun piece mem => ?_⟩
      have := bounds piece mem
      omega

/-- What the pieces of a located chunk make of its block. -/
theorem spliced_piecesFrom (written : String → α) {source : List α} (oldStart newStart : Nat)
    (fits : index + pattern.length ≤ source.length) (aligned : InStep pattern newSlice contexts)
    (starts : oldStart ≤ pattern.length) (newStarts : newStart ≤ newSlice.length)
    (behind : ∀ context ∈ contexts, oldStart ≤ context.1 ∧ newStart ≤ context.2) :
    spliced written (source.take (index + pattern.length)) (index + oldStart)
        (piecesFrom index pattern newSlice oldStart newStart contexts) =
      merged written ((source.drop index).take pattern.length) newSlice newStart contexts := by
  induction contexts generalizing oldStart newStart with
  | nil =>
    have nothing : (source.take (index + pattern.length)).drop (index + pattern.length) = [] :=
      drop_eq_nil_of_le (length_take_le _ _)
    rw [piecesFrom, lastPiece, merged]
    split
    · have stop : index + oldStart + (pattern.length - oldStart) = index + pattern.length := by
        omega
      simp [spliced, Replacement.stop, stop, nothing]
    · rename_i whole
      obtain ⟨old, new⟩ := not_or.mp whole
      rw [spliced, not_not.mp old, nothing, not_not.mp new, drop_length]
      rfl
  | cons context _ ih =>
    obtain ⟨old, new⟩ := context
    obtain ⟨later, increasing⟩ := pairwise_cons.mp aligned.increasing
    obtain ⟨within, withins⟩ := forall_mem_cons.mp aligned.within
    have above := behind (old, new) mem_cons_self
    have rest := ih (old + 1) (new + 1) ⟨increasing, withins⟩ within.1 within.2 later
    have placed := (piecesFrom_placed index (old + 1) (new + 1) ⟨increasing, withins⟩ within.1
      fun other mem => (later other mem).1).2
    have line : ((source.drop index).take pattern.length)[old]? =
        (source.take (index + pattern.length))[index + old]? := by
      rw [getElem?_take_of_lt within.1, getElem?_drop, getElem?_take_of_lt (by omega)]
    have inside : index + old < (source.take (index + pattern.length)).length := by
      rw [length_take]
      omega
    have here := spliced_succ written inside fun piece mem => (placed piece mem).1
    rw [merged, line, ← rest, ← Nat.add_assoc, ← here, piecesFrom, if_neg (by omega)]
    split
    · have stop : index + oldStart + (old - oldStart) = index + old := by omega
      rw [cons_append, nil_append, spliced]
      simp [Replacement.stop, stop]
    · rename_i adjacent
      obtain ⟨sameOld, sameNew⟩ := not_or.mp adjacent
      rw [not_not.mp sameOld, not_not.mp sameNew, drop_take_self]
      rfl

/-- The context lines up to the first one beyond the lines that are left, which ends the loop. -/
def inSight (pattern newSlice : List String) (contexts : List (Nat × Nat)) : List (Nat × Nat) :=
  contexts.takeWhile fun context => context.1 < pattern.length && context.2 < newSlice.length

theorem piecesFrom_inSight (index oldStart newStart : Nat) :
    piecesFrom index pattern newSlice oldStart newStart (inSight pattern newSlice contexts) =
      piecesFrom index pattern newSlice oldStart newStart contexts := by
  induction contexts generalizing oldStart newStart with
  | nil => rfl
  | cons context _ ih =>
    by_cases sight : context.1 < pattern.length ∧ context.2 < newSlice.length
    · simp_all [inSight, piecesFrom]
    · have out : pattern.length ≤ context.1 ∨ newSlice.length ≤ context.2 := by omega
      simp_all [inSight, piecesFrom]

theorem length_merged (written : String → α) {block : List α} (size : block.length = pattern.length)
    (newStart : Nat) (aligned : InStep pattern newSlice contexts)
    (behind : ∀ context ∈ contexts, newStart ≤ context.2) :
    (merged written block newSlice newStart contexts).length = newSlice.length - newStart := by
  induction contexts generalizing newStart with
  | nil => simp [merged]
  | cons context _ ih =>
    obtain ⟨later, increasing⟩ := pairwise_cons.mp aligned.increasing
    obtain ⟨within, withins⟩ := forall_mem_cons.mp aligned.within
    have above := behind context mem_cons_self
    have rest := ih (context.2 + 1) ⟨increasing, withins⟩ fun other mem => (later other mem).2
    rw [merged, getElem?_eq_getElem (size ▸ within.1)]
    simp [rest]
    omega

/-- With the last context line out of sight, what counts are the lines from it on. -/
theorem merged_concat_eq_iff (written : String → α) {block : List α} {newLines : List String}
    {old new newStart : Nat} (starts : newStart ≤ new)
    (before : ∀ context ∈ contexts, context.2 < new)
    (taken : newSlice.take new = newLines.take new) :
    merged written block newSlice newStart contexts =
        merged written block newLines newStart (contexts ++ [(old, new)]) ↔
      (newSlice.drop new).map written =
        block[old]?.toList ++ (newLines.drop (new + 1)).map written := by
  induction contexts generalizing newStart with
  | nil =>
    have split : newSlice.drop newStart =
        (newLines.take new).drop newStart ++ newSlice.drop new := by
      have parts := take_append_drop (new - newStart) (newSlice.drop newStart)
      rw [drop_drop, Nat.add_sub_cancel' starts, ← drop_take, taken] at parts
      exact parts.symm
    rw [nil_append, merged, merged, merged, split, map_append, append_cancel_left_eq]
  | cons context _ ih =>
    obtain ⟨first, later⟩ := forall_mem_cons.mp before
    have same : newSlice.take context.2 = newLines.take context.2 := by
      simpa [take_take, first.le] using congrArg (take context.2) taken
    rw [cons_append, merged, merged, same, append_cancel_left_eq, append_cancel_left_eq,
      ih first later]

/-! ### Source files -/

/-- A line with a new text. -/
def LineEnding.line (preferred : LineEnding) (text : String) : SourceLine := ⟨text, some preferred⟩

theorem replaceFrom_eq (preferred : LineEnding) (source : List SourceLine)
    {replacements : List Replacement}
    (after : ∀ replacement ∈ replacements, index ≤ replacement.start)
    (order : replacements.Pairwise Replacement.Before) :
    replaceFrom preferred index (source.drop index) replacements =
      spliced preferred.line source index replacements := by
  induction replacements generalizing index with
  | nil => rfl
  | cons replacement _ ih =>
    obtain ⟨behind, order'⟩ := pairwise_cons.mp order
    have above := after replacement mem_cons_self
    have stop : index + (replacement.start - index + replacement.oldLength) = replacement.stop := by
      rw [← Nat.add_assoc, Nat.add_sub_cancel' above, Replacement.stop]
    rw [replaceFrom, spliced, ← ih behind order', drop_drop, drop_drop, stop, append_assoc]
    rfl

/-- A parsed file has all its text. -/
theorem intoContents_parse (contents : String) : (parse contents).intoContents = contents := by
  have parsed (text chars : List Char) : (String.join ((parseFrom text chars).map fun line =>
        line.text ++ (line.ending.map LineEnding.text).getD "")).toList = text ++ chars := by
    fun_induction parseFrom text chars <;> simp_all [String.join_cons, LineEnding.text]
  exact String.toList_inj.mp (parsed [] contents.toList)

/-! ### Preserved line endings -/

/-- The lines of the source that the chunk was found at. -/
def Spot.block (file : SourceFile) (spot : Spot) : List SourceLine :=
  (file.lines.drop spot.index).take spot.pattern.length

/-- The replacements turn the chunk's block of the source into its added lines, between the
source's own lines for the context lines that the block has. -/
def Spot.Edits (file : SourceFile) (spot : Spot) : Prop :=
  spliced file.preferredEnding.line (file.lines.take spot.stop) spot.index
      (spot.replacements .preserveLineEndings) =
    merged file.preferredEnding.line (spot.block file) spot.chunk.newLines 0
      spot.chunk.contextLineIndices

/-- No line is lost with the last old line, an empty one.  If this is a context line, only empty
lines are added behind it.  If it is removed, the new lines do not end in an empty one. -/
def UpdateFileChunk.EndKept (chunk : UpdateFileChunk) : Prop :=
  (∃ context ∈ chunk.contextLineIndices, context.1 + 1 = chunk.oldLines.length ∧
      ∀ line ∈ chunk.newLines.drop (context.2 + 1), line = "") ∨
    (∀ context ∈ chunk.contextLineIndices, context.1 + 1 ≠ chunk.oldLines.length) ∧
      endsEmpty chunk.newLines = false

instance (chunk : UpdateFileChunk) : Decidable chunk.EndKept :=
  inferInstanceAs (Decidable (_ ∨ _))

variable {spot : Spot}

theorem Spot.lengths (spot : Spot) : spot.chunk.oldLines.length ≤ spot.pattern.length + 1 ∧
    spot.chunk.newLines.length ≤ spot.newSlice.length + 1 := by
  unfold Spot.pattern Spot.newSlice
  constructor <;> split <;> simp <;> omega

theorem Spot.inStep (aligned : spot.chunk.Aligned) : InStep spot.pattern spot.newSlice
    (inSight spot.pattern spot.newSlice spot.chunk.contextLineIndices) where
  increasing := aligned.increasing.sublist (takeWhile_sublist _)
  within context mem := by simpa using mem_takeWhile_imp mem

theorem dropLast_cons_eq_iff (first : String) (later : List String) :
    (first :: later).dropLast = later ↔ ∀ line ∈ later, line = first := by
  induction later generalizing first with
  | nil => simp
  | cons second _ ih =>
    rw [dropLast_cons_cons, cons.injEq, ih, forall_mem_cons]
    refine ⟨?_, ?_⟩
    · rintro ⟨rfl, rest⟩
      exact ⟨rfl, rest⟩
    · rintro ⟨rfl, rest⟩
      exact ⟨rfl, rest⟩

theorem line_injective (preferred : LineEnding) : Function.Injective preferred.line :=
  fun _ _ same => congrArg SourceLine.text same

/-- An empty line is not written, and the empty line at the end is not written instead. -/
theorem Spot.drop_newSlice_eq_iff {new : Nat} (shortened : spot.shortened = true)
    (empty : spot.chunk.newLines[new]? = some "") :
    spot.newSlice.drop new = spot.chunk.newLines.drop (new + 1) ↔
      ∀ line ∈ spot.chunk.newLines.drop (new + 1), line = "" := by
  obtain ⟨inside, text⟩ := List.getElem?_eq_some_iff.mp empty
  have split : spot.chunk.newLines.drop new = "" :: spot.chunk.newLines.drop (new + 1) := by
    rw [drop_eq_getElem_cons inside, text]
  rw [Spot.newSlice, shortened, Bool.true_and]
  split_ifs with padded
  · rw [← dropLast_cons_eq_iff, ← split, dropLast_drop_eq_drop_dropLast]
  · refine iff_of_false (fun same => ?_) fun all => padded ?_
    · rw [split] at same
      simp at same
    · have last : spot.chunk.newLines.getLast? =
          ("" :: spot.chunk.newLines.drop (new + 1)).getLast? := by
        rw [← split, getLast?_drop, if_neg (by omega)]
      rw [endsEmpty, last, getLast?_cons]
      cases behind : (spot.chunk.newLines.drop (new + 1)).getLast? with
      | none => rfl
      | some line => simp [all line (mem_of_getLast? behind)]

section Edits

variable {file : SourceFile}

theorem Spot.length_block (inside : spot.stop ≤ file.lines.length) :
    (spot.block file).length = spot.pattern.length := by
  have fits : spot.index + spot.pattern.length ≤ file.lines.length := inside
  simp only [Spot.block, length_take, length_drop]
  omega

variable (aligned : spot.chunk.Aligned) (inside : spot.stop ≤ file.lines.length)
include aligned

theorem Spot.edits_of_nil (none : spot.chunk.oldLines = []) : spot.Edits file := by
  have contexts : spot.chunk.contextLineIndices = [] := by
    refine eq_nil_iff_forall_not_mem.mpr fun context mem => ?_
    have := (aligned.within context mem).1
    simp [none] at this
  simp [Spot.Edits, Spot.replacements, Spot.stop, Spot.pattern, Replacement.stop, spliced, merged,
    none, contexts]

include inside

theorem Spot.edits_iff_merged (nonempty : spot.chunk.oldLines ≠ []) : spot.Edits file ↔
    merged file.preferredEnding.line (spot.block file) spot.newSlice 0
        (inSight spot.pattern spot.newSlice spot.chunk.contextLineIndices) =
      merged file.preferredEnding.line (spot.block file) spot.chunk.newLines 0
        spot.chunk.contextLineIndices := by
  have actual := spliced_piecesFrom file.preferredEnding.line 0 0 inside (Spot.inStep aligned)
    (zero_le _) (zero_le _) fun _ _ => ⟨zero_le _, zero_le _⟩
  rw [Nat.add_zero, piecesFrom_inSight] at actual
  rw [Spot.Edits, Spot.replacements, if_neg nonempty, Spot.stop, actual, Spot.block]

/-- If the block has all context lines, the chunk has to write one line for each new one. -/
theorem Spot.edits_iff_of_seen (nonempty : spot.chunk.oldLines ≠ [])
    (seen : ∀ context ∈ spot.chunk.contextLineIndices, context.1 < spot.pattern.length) :
    spot.Edits file ↔ spot.newSlice = spot.chunk.newLines := by
  have size := Spot.length_block inside
  have whole : InStep spot.pattern spot.chunk.newLines spot.chunk.contextLineIndices :=
    ⟨aligned.increasing, fun context mem => ⟨seen context mem, (aligned.within context mem).2⟩⟩
  rw [Spot.edits_iff_merged aligned inside nonempty]
  constructor
  · intro same
    have lengths := congrArg length same
    rw [length_merged _ size 0 (Spot.inStep aligned) fun _ _ => zero_le _,
      length_merged _ size 0 whole fun _ _ => zero_le _] at lengths
    exact (Spot.newSlice_begins spot).eq_of_length lengths
  · intro same
    rw [same, inSight, takeWhile_eq_self_iff.mpr]
    intro context mem
    simpa using whole.within context mem

/-- If the last context line is behind the block, it is written as if it were added. -/
theorem Spot.edits_iff_of_last (nonempty : spot.chunk.oldLines ≠ []) {earlier : List (Nat × Nat)}
    {new : Nat} (shortened : spot.shortened = true) (empty : spot.chunk.newLines[new]? = some "")
    (split : spot.chunk.contextLineIndices = earlier ++ [(spot.pattern.length, new)]) :
    spot.Edits file ↔ ∀ line ∈ spot.chunk.newLines.drop (new + 1), line = "" := by
  have increasing := aligned.increasing
  rw [split] at increasing
  have before (context : Nat × Nat) (mem : context ∈ earlier) :=
    (pairwise_append.mp increasing).2.2 context mem _ mem_cons_self
  have within := aligned.within (spot.pattern.length, new) (by simp [split])
  have shorter := Spot.lengths spot
  have seen : inSight spot.pattern spot.newSlice spot.chunk.contextLineIndices = earlier := by
    rw [split, inSight, takeWhile_append_of_pos, takeWhile_cons_of_neg, append_nil]
    · simp
    · intro context mem
      have := before context mem
      simp
      omega
  have taken : spot.newSlice.take new = spot.chunk.newLines.take new := by
    rw [prefix_iff_eq_take.mp (Spot.newSlice_begins spot), take_take, min_eq_left (by omega)]
  rw [Spot.edits_iff_merged aligned inside nonempty, seen, split,
    merged_concat_eq_iff _ (zero_le _) (fun context mem => (before context mem).2) taken,
    getElem?_eq_none (Spot.length_block inside).le, Option.toList_none, nil_append,
    (map_injective_iff.mpr (line_injective _)).eq_iff, Spot.drop_newSlice_eq_iff shortened empty]

/-- A chunk edits its block exactly if it is found as it stands or keeps its end. -/
theorem Spot.edits_iff (found : spot.Found .preserveLineEndings file.lineTexts) :
    spot.Edits file ↔ (spot.shortened = true → spot.chunk.EndKept) := by
  by_cases none : spot.chunk.oldLines = []
  · refine iff_of_true (Spot.edits_of_nil aligned none) fun shortened => ?_
    have padded := (found.missing.mp shortened).1
    simp [none, endsEmpty] at padded
  have positive := length_pos_iff.mpr none
  have length (shortened : spot.shortened = true) :
      spot.pattern.length + 1 = spot.chunk.oldLines.length := by
    simp only [Spot.pattern, shortened, if_true, length_dropLast]
    omega
  by_cases seen : ∀ context ∈ spot.chunk.contextLineIndices, context.1 < spot.pattern.length
  · rw [Spot.edits_iff_of_seen aligned inside none seen, Spot.newSlice_eq_iff]
    refine forall_congr' fun shortened => ?_
    have removed : ∀ context ∈ spot.chunk.contextLineIndices,
        context.1 + 1 ≠ spot.chunk.oldLines.length := by
      intro context mem
      have := seen context mem
      have := length shortened
      omega
    rw [EndKept, and_iff_right removed, or_iff_right]
    rintro ⟨context, mem, last, -⟩
    exact removed context mem last
  · -- The final empty line is a context line, and so it is the last one of them.
    simp only [not_forall, not_lt] at seen
    obtain ⟨⟨old, new⟩, mem, out⟩ := seen
    have within := aligned.within _ mem
    obtain rfl : old = spot.pattern.length := by
      have := Spot.lengths spot
      omega
    have shortened : spot.shortened = true := by
      by_contra whole
      simp only [Spot.pattern, whole, if_false] at within
      omega
    have size := length shortened
    have empty : spot.chunk.newLines[new]? = some "" := by
      have padded := (found.missing.mp shortened).1
      rw [endsEmpty, decide_eq_true_iff, getLast?_eq_getElem?, ← size] at padded
      rw [← aligned.same _ mem]
      exact padded
    have increasing := aligned.increasing
    obtain ⟨earlier, later, split⟩ := append_of_mem mem
    rw [split] at increasing
    obtain ⟨-, behind, before⟩ := pairwise_append.mp increasing
    obtain rfl : later = [] := by
      refine eq_nil_iff_forall_not_mem.mpr fun context isLater => ?_
      have := (pairwise_cons.mp behind).1 context isLater
      have := aligned.within context (by simp [split, isLater])
      omega
    rw [Spot.edits_iff_of_last aligned inside none shortened empty split, imp_iff_right shortened]
    constructor
    · intro all
      exact .inl ⟨_, mem, size, all⟩
    · rintro (⟨context, isContext, atEnd, all⟩ | ⟨removed, -⟩)
      · rw [split, mem_append, mem_singleton] at isContext
        rcases isContext with isEarlier | rfl
        · have := before context isEarlier _ mem_cons_self
          omega
        · exact all
      · exact absurd size (removed _ mem)

end Edits

/-! ### The update -/

/-- Lines are inserted at the end of the file, and every other chunk lies where its search begins or
behind. -/
theorem Spot.Found.forward {lines : List String} (found : spot.Found .preserveLineEndings lines)
    (inside : spot.start ≤ lines.length) : spot.stop ≤ lines.length ∧
      (spot.index = lines.length ∨ spot.start ≤ spot.index ∧ spot.next = spot.stop) := by
  obtain ⟨within, -, -, ⟨-, inserted, -⟩ | ⟨-, goesOn, after | ⟨other, -⟩⟩⟩ := found.bounds inside
  · exact ⟨within, .inl inserted⟩
  · exact ⟨within, .inr ⟨after, goesOn⟩⟩
  · cases other

/-- Where the replacements of a chunk lie. -/
theorem Spot.replacements_placed (aligned : spot.chunk.Aligned) :
    (spot.replacements .preserveLineEndings).Pairwise Replacement.Before ∧
      ∀ replacement ∈ spot.replacements .preserveLineEndings,
        spot.index ≤ replacement.start ∧ replacement.stop ≤ spot.stop := by
  rw [Spot.replacements]
  split
  · simp [Replacement.stop, Spot.stop]
  · rw [← piecesFrom_inSight]
    exact piecesFrom_placed spot.index 0 0 (Spot.inStep aligned) (zero_le _) fun _ _ => zero_le _

/-- The replacements are in bounds and do not overlap, and outside of them every line keeps its text
and its ending; a missing last ending becomes the preferred one.  A chunk becomes its added lines
between its context lines exactly if it is found with its final empty line or no line is lost
without it. -/
theorem preservedUpdate_inPlace_iff (contents path : String) (chunks : List UpdateFileChunk)
    (file : SourceFile) (replacements : List Replacement) (opened : parse contents = file)
    (aligned : ∀ chunk ∈ chunks, chunk.Aligned)
    (computed : computeReplacements file.lineTexts path chunks .preserveLineEndings =
      .ok replacements) :
    file.intoContents = contents ∧
      replacements.Pairwise Replacement.Before ∧
      (∀ replacement ∈ replacements, replacement.stop ≤ file.lines.length) ∧
      deriveNewContents .preserveLineEndings path chunks contents =
        .ok (intoContents { file with
          lines := (spliced file.preferredEnding.line file.lines 0 replacements).map fun line =>
            { line with ending := some (line.ending.getD file.preferredEnding) } }) ∧
      ∃ spots, spots.map Spot.chunk = chunks ∧
        Spots .preserveLineEndings file.lineTexts path 0 spots ∧
        replacements.Perm (spots.flatMap (·.replacements .preserveLineEndings)) ∧
        ∀ spot ∈ spots, (spot.Edits file ↔ (endsEmpty spot.chunk.oldLines = true →
          Missing .preserveLineEndings file.lineTexts spot.chunk.oldLines spot.start
            spot.chunk.isEndOfFile → spot.chunk.EndKept)) := by
  have given := computed
  rw [computeReplacements, Except.bind_eq_ok_iff] at given
  obtain ⟨_, all, given⟩ := given
  obtain ⟨spots, rfl, located, rfl⟩ := replacementsFrom_eq_ok all
  obtain ⟨found, order⟩ := located.ordered (zero_le _)
  have length : file.lineTexts.length = file.lines.length := length_map _
  have placed (spot : Spot) (mem : spot ∈ spots) :=
    Spot.replacements_placed (aligned _ (mem_map_of_mem mem))
  have apart : (spots.flatMap (·.replacements .preserveLineEndings)).Pairwise Apart := by
    refine pairwise_flatMap.mpr ⟨fun spot mem => (placed spot mem).1.imp .inl, ?_⟩
    refine order.imp_of_mem fun {first second} isFirst isSecond next one isOne two isTwo => ?_
    obtain ⟨-, begins, firstFound⟩ := found first isFirst
    obtain ⟨-, inside, secondFound⟩ := found second isSecond
    have firstPlaced := (placed first isFirst).2 one isOne
    have secondPlaced := (placed second isSecond).2 two isTwo
    have ordered : one.start ≤ one.stop := le_add_right _ _
    have firstBounds := firstFound.forward begins
    have secondBounds := secondFound.forward inside
    unfold Apart
    omega
  cases given
  have before := pairwise_insertionSort_iff.mpr apart
  have spliced := replaceFrom_eq file.preferredEnding file.lines
    (fun replacement _ => zero_le replacement.start) before
  rw [drop_zero] at spliced
  refine ⟨opened ▸ intoContents_parse contents, before, fun replacement mem => ?_, ?_, spots, rfl,
    located, perm_insertionSort _ _, fun spot mem => ?_⟩
  · obtain ⟨spot, isSpot, piece⟩ := mem_flatMap.mp ((mem_insertionSort _).mp mem)
    obtain ⟨-, begins, isFound⟩ := found spot isSpot
    exact ((placed spot isSpot).2 replacement piece).2.trans (length ▸ (isFound.bounds begins).1)
  · rw [deriveNewContents, opened, computed, ← spliced]
    rfl
  · obtain ⟨-, begins, isFound⟩ := found spot mem
    rw [Spot.edits_iff (aligned _ (mem_map_of_mem mem)) (length ▸ (isFound.bounds begins).1) isFound,
      isFound.missing, and_imp]

/-- A change between lines, and a change before a last context line, which stands for the end of the
file. -/
def changedEnd : List UpdateFileChunk :=
  [pushText "+r" (pushText "+p" (pushText "-q" (pushText " h" .empty))),
    pushText " " (pushText "+x" (pushText "-b" (pushText " a" .empty)))]

/-- The second chunk is found without its last context line, and nothing is lost. -/
theorem changedEnd_inPlace :
    deriveNewContents .preserveLineEndings "f" changedEnd "h\nq\ra\r\nb" = .ok "h\np\nr\na\r\nx\n" ∧
      ∃ spots : List Spot, spots.map Spot.chunk = changedEnd ∧
        ∀ spot ∈ spots, spot.Edits (parse "h\nq\ra\r\nb") := by
  have aligned : ∀ chunk ∈ changedEnd, chunk.Aligned := by
    refine forall_mem_cons.mpr ⟨?_, forall_mem_singleton.mpr ?_⟩ <;>
      exact ((((aligned_empty none).pushText _).pushText _).pushText _).pushText _
  obtain ⟨-, -, -, derived, spots, chunks, -, -, edits⟩ :=
    preservedUpdate_inPlace_iff "h\nq\ra\r\nb" "f" changedEnd _
      [⟨1, 1, ["p", "r"]⟩, ⟨3, 1, ["x"]⟩] rfl aligned rfl
  have kept : ∀ chunk ∈ changedEnd, chunk.EndKept := by
    decide
  refine ⟨derived, spots, chunks, fun spot mem => (edits spot mem).mpr fun _ _ => ?_⟩
  exact kept spot.chunk (chunks ▸ mem_map_of_mem mem)

/-- A chunk of two context lines and a removed empty line, which the file has no more. -/
def removedEnd : UpdateFileChunk := pushText "-" (pushText " " (pushText " a" .empty))

/-- The empty line of the file is lost, though it is a context line. -/
theorem removedEnd_loses_context :
    removedEnd.oldLines = ["a", "", ""] ∧ removedEnd.newLines = ["a", ""] ∧
      removedEnd.contextLineIndices = [(0, 0), (1, 1)] ∧
      deriveNewContents .preserveLineEndings "f" [removedEnd] "a\n\n" = .ok "a\n" :=
  ⟨rfl, rfl, rfl, rfl⟩

end WeaveCodex.ApplyPatch
