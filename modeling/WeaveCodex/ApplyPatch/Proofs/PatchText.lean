/-
Purpose: Facts about the text functions of the patch parser: what trimming keeps, when a
  marker is stripped, and how a text is cut into lines and joined again.
-/
import Mathlib.Data.List.DropRight
import WeaveCodex.ApplyPatch.Parser

namespace WeaveCodex.ApplyPatch

open Library LineStream List
open String hiding append_assoc map_map

/-! ### Trimming -/

theorem toList_trimEnd (text : String) : (trimEnd text).toList = text.toList.rdropWhile isWhitespace :=
  toList_ofList

theorem toList_trim (text : String) :
    (trim text).toList = (text.toList.dropWhile isWhitespace).rdropWhile isWhitespace := by
  rw [trim, toList_trimEnd, toList_ofList]

variable {tail : List Char} {char : Char} {text : String}

section

variable {text : List Char} (returns : ∀ char ∈ tail, char = '\r')
include returns

/-- Trailing carriage returns are white space. -/
theorem rdropWhile_returns : (text ++ tail).rdropWhile isWhitespace = text.rdropWhile isWhitespace := by
  induction tail using reverseRecOn with
  | nil => rw [append_nil]
  | append_singleton _ char ih =>
    have blank : isWhitespace char = true := by
      rw [returns char (by simp)]
      decide
    rw [← append_assoc, rdropWhile_concat_pos _ _ _ blank]
    apply ih
    intro other mem
    exact returns other (mem_append_left _ mem)

theorem trimEnd_returns : trimEnd (String.ofList (text ++ tail)) = trimEnd (String.ofList text) := by
  apply toList_inj.mp
  simp only [toList_trimEnd, toList_ofList, rdropWhile_returns returns]

theorem trim_returns : trim (String.ofList (text ++ tail)) = trim (String.ofList text) := by
  have blank : ∀ char ∈ tail, isWhitespace char = true := by
    intro char mem
    rw [returns char mem]
    decide
  apply toList_inj.mp
  rw [toList_trim, toList_trim, toList_ofList, toList_ofList, dropWhile_append]
  split
  · rename_i allBlank
    rw [List.isEmpty_iff] at allBlank
    rw [allBlank, dropWhile_eq_nil_iff.mpr blank]
  · exact rdropWhile_returns returns

end

/-- What trimming the end leaves starts as the text starts. -/
theorem head?_trimEnd (starts : (trimEnd text).toList.head? = some char) :
    text.toList.head? = some char := by
  obtain ⟨_, whole⟩ := rdropWhile_prefix isWhitespace text.toList
  rw [toList_trimEnd] at starts
  rw [← whole, head?_append, starts, Option.some_or]

/-- Without leading white space both ways of trimming are the same. -/
theorem trim_eq_trimEnd (starts : text.toList.head? = some char)
    (visible : isWhitespace char = false) : trim text = trimEnd text := by
  rw [trim]
  cases chars : text.toList with
  | nil =>
    rw [chars] at starts
    cases starts
  | cons =>
    rw [chars] at starts
    cases starts
    rw [dropWhile_cons, visible, if_neg Bool.false_ne_true, ← chars, ofList_toList]

theorem trim_append_visible (text : List Char) (visible : isWhitespace char = false) :
    ∃ front, (trim (String.ofList (text ++ [char]))).toList = front ++ [char] := by
  rw [toList_trim, toList_ofList, dropWhile_append]
  split
  · refine ⟨[], ?_⟩
    rw [dropWhile_cons, visible, if_neg Bool.false_ne_true]
    exact rdropWhile_concat_neg _ [] _ (by simp [visible])
  · refine ⟨_, rdropWhile_concat_neg _ _ _ (by simp [visible])⟩

/-! ### Markers -/

theorem stripLeading_eq_some {marker rest : String} :
    stripLeading marker text = some rest ↔ text = marker ++ rest := by
  rw [stripLeading]
  constructor
  · intro stripped
    split at stripped
    · rename_i leads
      obtain ⟨_, whole⟩ := isPrefixOf_iff_prefix.mp leads
      cases stripped
      apply toList_inj.mp
      rw [toList_append, toList_ofList, ← whole, drop_left]
    · cases stripped
  · rintro rfl
    rw [toList_append, if_pos <| isPrefixOf_iff_prefix.mpr (prefix_append _ _),
      drop_left, ofList_toList]

/-- A text with another first character does not have the marker. -/
theorem stripLeading_eq_none (marker : String) (char : Char)
    (marked : marker.toList.head? = some char) (other : text.toList.head? ≠ some char) :
    stripLeading marker text = none := by
  cases stripped : stripLeading marker text with
  | none => rfl
  | some =>
    rw [stripLeading_eq_some.mp stripped, toList_append, head?_append, marked,
      Option.some_or] at other
    contradiction

/-! ### Lines -/

theorem splitLinesFrom_eq_cut (piece chars : List Char) : splitLinesFrom piece chars =
    (cut piece chars).1 ++ [(cut piece chars).2] := by
  induction chars generalizing piece with
  | nil => rfl
  | cons _ _ ih =>
    rw [splitLinesFrom, cut]
    split
    · rw [ih, cons_append]
    · exact ih _

/-- The completed lines without one carriage return each, and what follows them. -/
theorem strLines_eq (text : String) : strLines text = ((cut [] text.toList).1.map stripCarriageReturn ++
    if (cut [] text.toList).2 = [] then []
    else [(cut [] text.toList).2]).map String.ofList := by
  rw [strLines]
  simp only [splitLinesFrom_eq_cut, dropLast_concat, getLast?_concat]
  by_cases ended : (cut [] text.toList).2 = []
  · simp [ended]
  · simp [ended]

theorem toList_joinLines (lines : List (List Char)) :
    (joinLines (lines.map String.ofList)).toList = intercalate ['\n'] lines := by
  rw [joinLines, toList_intercalate, map_map]
  simp [Function.comp_def]

theorem cut_joinLines {lines : List (List Char)} {last : List Char}
    (single : ∀ line ∈ lines, '\n' ∉ line) (unterminated : '\n' ∉ last) :
    cut [] (joinLines ((lines ++ [last]).map String.ofList)).toList = (lines, last) := by
  rw [toList_joinLines, cut_intercalate single unterminated]

theorem not_mem_stripCarriageReturn {line : List Char} (absent : char ∉ line) :
    char ∉ stripCarriageReturn line := by
  rw [stripCarriageReturn]
  split
  · intro mem
    exact absent (dropLast_subset line mem)
  · exact absent

/-! ### The stream as lines -/

/-- What the streaming parser makes of completed lines and a last one. -/
def streamLines (lines : List (List Char)) (last : List Char) : Except ParseError StreamOutcome :=
  match LineStream.handleAll LineParser.handleLine {} lines with
  | .error error => .error error
  | .ok state =>
    (StreamingPatchParser.finish { state with lineBuffer := last }).map fun state =>
      { hunks := state.hunks, environmentId := state.environmentId }

theorem streamPatch_eq (patch : String) : streamPatch [patch] =
    streamLines (cut [] patch.toList).1 (cut [] patch.toList).2 := by
  rw [streamPatch, StreamingPatchParser.pushDeltas, StreamingPatchParser.pushDelta,
    feed_eq_cut, streamLines]
  cases handleAll LineParser.handleLine {} (cut [] patch.toList).1 with
  | error | ok => rfl

end WeaveCodex.ApplyPatch
