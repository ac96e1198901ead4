/-
Purpose: The streaming parser does not depend on how a patch is cut into deltas, and the
  hunks it reports only grow: a line leaves the hunks alone, changes the last one, or adds
  one.
-/
import WeaveCodex.ApplyPatch.Proofs.LineKinds

namespace WeaveCodex.ApplyPatch

open Library LineStream StreamingPatchParser List LineParser

namespace StreamingPatchParser

/-! ### Cuts -/

theorem pushDelta_append (parser : StreamingPatchParser) (front back : String) :
    parser.pushDelta (front ++ back) =
      (parser.pushDelta front).bind fun middle => middle.pushDelta back := by
  rw [pushDelta, String.toList_append, feed_append, pushDelta]
  cases feed handleLine (parser.lineBuffer, parser.toLineParser) front.toList with
  | error | ok => rfl

theorem pushDeltas_eq (parser : StreamingPatchParser) (deltas : List String) :
    parser.pushDeltas deltas = parser.pushDelta (String.join deltas) := by
  induction deltas generalizing parser with
  | nil => rfl
  | cons delta _ ih =>
    rw [String.join_cons, pushDelta_append, pushDeltas]
    cases parser.pushDelta delta with
    | error => rfl
    | ok parser => exact ih parser

end StreamingPatchParser

/-! ### Growing hunks -/

/-- A list of hunks that is at least as long and keeps all but the last of the old ones. -/
structure Extends (old new : List Hunk) : Prop where
  length : old.length ≤ new.length
  kept : old.dropLast <+: new

namespace Extends

theorem refl (hunks : List Hunk) : Extends hunks hunks :=
  ⟨Nat.le_refl _, dropLast_prefix hunks⟩

theorem pushed (hunks : List Hunk) (hunk : Hunk) : Extends hunks (hunks ++ [hunk]) := by
  refine ⟨by simp, ?_⟩
  exact (IsPrefix.trans <| dropLast_prefix hunks) (prefix_append hunks [hunk])

theorem replaced {hunks : List Hunk} (hunk : Hunk) {last : Hunk}
    (present : hunks.getLast? = some last) : Extends hunks (hunks.dropLast ++ [hunk]) := by
  have nonempty : hunks ≠ [] := by
    rintro rfl
    cases present
  have positive := length_pos_of_ne_nil nonempty
  refine ⟨?_, prefix_append _ _⟩
  rw [length_append, length_dropLast, length_singleton]
  omega

theorem trans {old middle new : List Hunk} (first : Extends old middle)
    (second : Extends middle new) : Extends old new := by
  refine ⟨first.length.trans second.length, ?_⟩
  -- All but the last old hunk are among all but the last middle one.
  have within : old.dropLast <+: middle.dropLast := by
    apply prefix_of_prefix_length_le first.kept <| dropLast_prefix middle
    have := first.length
    rw [length_dropLast, length_dropLast]
    omega
  exact within.trans second.kept

end Extends

namespace LineParser

variable {parser final : LineParser}

theorem Headed.extends {trimmed : String} (headed : parser.Headed trimmed final) :
    Extends parser.hunks final.hunks := by
  cases headed with
  | environment | ended => exact .refl _
  | _ => exact .pushed _ _

theorem Marked.extends {trimmed trimmedEnd : String}
    (marked : parser.Marked trimmed trimmedEnd final) : Extends parser.hunks final.hunks := by
  cases marked with
  | began | ended => exact .refl _
  | header _ _ handled => exact (headed_of_handled handled).extends
  | marker _ _ last => exact .replaced _ last

/-- One line: the hunks stay, the last one changes, or one is added. -/
theorem extends_processLine {line : String} (processed : parser.processLine line = .ok final) :
    Extends parser.hunks final.hunks := by
  rcases processLine_ok_iff.mp processed with ⟨_, rfl⟩ | marked
  · unfold withText
    split
    · rename_i present
      exact .replaced _ present
    · rename_i present
      exact .replaced _ present
    · exact .refl _
  · exact marked.extends

theorem extends_handleAll {lines : List (List Char)}
    (handled : handleAll handleLine parser lines = .ok final) :
    Extends parser.hunks final.hunks := by
  induction lines generalizing parser with
  | nil =>
    cases handled
    exact .refl _
  | cons _ _ ih =>
    obtain ⟨_, first, later⟩ := handleAll_cons_ok.mp handled
    exact (extends_processLine first).trans (ih later)

end LineParser

/-- However a patch is cut into deltas, the stream comes to what one delta of the whole
text comes to, and every delta that goes through extends the hunks of the one before. -/
theorem deltas_stream_alike (deltas : List String) :
    streamPatch deltas = streamPatch [String.join deltas] ∧
      ∀ before delta after, deltas = before ++ delta :: after → ∀ parser final,
        StreamingPatchParser.pushDeltas {} before = .ok parser →
        parser.pushDelta delta = .ok final → Extends parser.hunks final.hunks := by
  constructor
  · rw [streamPatch, streamPatch, pushDeltas_eq, pushDeltas_eq]
    simp [String.join_cons]
  · intro before delta after _ parser final _ pushed
    rw [pushDelta, feed_eq_cut] at pushed
    cases handled : handleAll handleLine parser.toLineParser
        (LineStream.cut parser.lineBuffer delta.toList).1 with
    | error =>
      rw [handled] at pushed
      cases pushed
    | ok =>
      rw [handled] at pushed
      cases pushed
      exact extends_handleAll handled

/-- Cuts inside a line ending and inside a marker do not matter. -/
theorem splitMarkers_stream :
    streamPatch ["*** Begin Patch\r", "\n*** Add File: a.txt\n+hi\n*** End", " Patch"] =
      .ok { hunks := [.addFile "a.txt" "hi\n"], environmentId := none } := by
  rw [(deltas_stream_alike _).1]
  decide

end WeaveCodex.ApplyPatch
