/-
Purpose: Parsing a whole patch text: its boundary lines, a heredoc around it, and the
  streaming parser on the lines in between.
Trusted boundary: translation of `parse_patch` and `parse_patch_text` in
  `apply-patch/src/parser.rs`
-/
import WeaveCodex.ApplyPatch.StreamingParser

namespace WeaveCodex.ApplyPatch

/-- Whether a heredoc around the patch is accepted. -/
inductive ParseMode where
  | strict | lenient
deriving DecidableEq, Repr

/-- `check_start_and_end_lines_strict`. -/
def checkStartAndEndLinesStrict (firstLine lastLine : Option String) : Except ParseError Unit :=
  match firstLine.map trim, lastLine.map trim with
  | some first, some last =>
    if first = beginPatchMarker ∧ last = endPatchMarker then .ok ()
    else if first ≠ beginPatchMarker then .error firstLineError
    else .error lastLineError
  | some first, none =>
    if first ≠ beginPatchMarker then .error firstLineError else .error lastLineError
  | none, _ => .error lastLineError

/-- `check_patch_boundaries_strict`. -/
def checkPatchBoundariesStrict (lines : List String) : Except ParseError (List String) :=
  (checkStartAndEndLinesStrict lines.head? lines.getLast?).map fun _ => lines

/-- The first lines that open a heredoc. -/
def heredocMarkers : List String :=
  ["<<EOF", "<<'EOF'", "<<\"EOF\""]

/-- The lines have a heredoc around them. -/
def isHeredoc (lines : List String) : Bool :=
  (lines.head?.any fun first => heredocMarkers.contains first) &&
    (lines.getLast?.any fun last => "EOF".toList.isSuffixOf last.toList) &&
    decide (4 ≤ lines.length)

/-- `check_patch_boundaries_strict` or `check_patch_boundaries_lenient`. -/
def checkPatchBoundaries (mode : ParseMode) (lines : List String) : Except ParseError (List String) :=
  match mode, checkPatchBoundariesStrict lines with
  | .strict, result => result
  | .lenient, .ok lines => .ok lines
  | .lenient, .error error =>
    if isHeredoc lines then checkPatchBoundariesStrict lines.tail.dropLast else .error error

/-- `ApplyPatchArgs` as `parse_patch` returns them. -/
structure ParsedPatch extends ApplyPatchArgs where
  environmentId : Option String

/-- The patch text that the parser is given. -/
def patchText (mode : ParseMode) (patch : String) : Except ParseError String :=
  (checkPatchBoundaries mode (strLines (trim patch))).map joinLines

def parsePatchText (patch : String) (mode : ParseMode) : Except ParseError ParsedPatch :=
  match patchText mode patch with
  | .error error => .error error
  | .ok patch =>
    (streamPatch [patch]).map fun outcome =>
      { hunks := outcome.hunks
        patch
        workdir := none
        environmentId := outcome.environmentId }

/-- `parse_patch`; the parser is not run in strict mode. -/
def parsePatch (patch : String) : Except ParseError ParsedPatch :=
  parsePatchText patch .lenient

/-- The hunks and the environment id of a parsed patch. -/
def ParsedPatch.outcome (parsed : ParsedPatch) : StreamOutcome :=
  { hunks := parsed.hunks, environmentId := parsed.environmentId }

end WeaveCodex.ApplyPatch
