/-
Purpose: The streaming patch parser: a mode machine over the lines of a patch that fills
  its hunks in place, fed with text deltas of any size.
Trusted boundary: translation of `apply-patch/src/streaming_parser.rs`; line numbers are natural
  numbers, where the source has `usize`
-/
import WeaveCodex.ApplyPatch.Patch
import WeaveCodex.Library.LineStream

namespace WeaveCodex.ApplyPatch

open Library String

inductive ParseError where
  | invalidPatchError (message : String)
  | invalidHunkError (message : String) (lineNumber : Nat)
deriving DecidableEq, Repr

def beginPatchMarker : String := "*** Begin Patch"

def endPatchMarker : String := "*** End Patch"

def addFileMarker : String := "*** Add File: "

def deleteFileMarker : String := "*** Delete File: "

def updateFileMarker : String := "*** Update File: "

def moveToMarker : String := "*** Move to: "

def eofMarker : String := "*** End of File"

def changeContextMarker : String := "@@ "

def emptyChangeContextMarker : String := "@@"

def environmentIdMarker : String := "*** Environment ID:"

inductive StreamingParserMode where
  | notStarted | startedPatch | addFile | deleteFile
  | updateFile (hunkLineNumber : Nat)
  | endedPatch
deriving DecidableEq, Repr

/-- The parser without its line buffer: `StreamingParserState` and the line number. -/
structure LineParser where
  mode : StreamingParserMode := .notStarted
  hunks : List Hunk := []
  environmentId : Option String := none
  lineNumber : Nat := 0
deriving DecidableEq, Repr

/-! ### Messages -/

def firstLineError : ParseError :=
  .invalidPatchError "The first line of the patch must be '*** Begin Patch'"

def lastLineError : ParseError :=
  .invalidPatchError "The last line of the patch must be '*** End Patch'"

def unexpectedLineMessage (line : String) : String :=
  "Unexpected line found in update hunk: '" ++ line ++ "'. Every line should start with ' ' " ++
    "(context line), '+' (added line), or '-' (removed line)"

def expectedContextMessage (line : String) : String :=
  "Expected update hunk to start with a @@ context marker, got: '" ++ line ++ "'"

def invalidHeaderMessage (trimmed : String) : String :=
  "'" ++ trimmed ++ "' is not a valid hunk header. Valid hunk headers: " ++
    "'*** Add File: \x7bpath\x7d', '*** Delete File: \x7bpath\x7d', '*** Update File: \x7bpath\x7d'"

/-! ### Chunks -/

namespace UpdateFileChunk

/-- `UpdateFileChunk::default()`. -/
def empty : UpdateFileChunk :=
  { oldLines := [], newLines := [] }

def hasNoLines (chunk : UpdateFileChunk) : Bool :=
  chunk.oldLines.isEmpty && chunk.newLines.isEmpty

/-- `push_context_line`: a line of both sides, with its indices. -/
def pushContextLine (line : String) (chunk : UpdateFileChunk) : UpdateFileChunk :=
  { chunk with
    contextLineIndices :=
      chunk.contextLineIndices ++ [(chunk.oldLines.length, chunk.newLines.length)]
    oldLines := chunk.oldLines ++ [line]
    newLines := chunk.newLines ++ [line] }

def pushNewLine (line : String) (chunk : UpdateFileChunk) : UpdateFileChunk :=
  { chunk with newLines := chunk.newLines ++ [line] }

def pushOldLine (line : String) (chunk : UpdateFileChunk) : UpdateFileChunk :=
  { chunk with oldLines := chunk.oldLines ++ [line] }

end UpdateFileChunk

/-- An edit of the last chunk; a hunk without chunks first gets an empty one. -/
def editLastChunk (edit : UpdateFileChunk → UpdateFileChunk) (chunks : List UpdateFileChunk) :
    List UpdateFileChunk :=
  match chunks.getLast? with
  | none => [edit .empty]
  | some chunk => chunks.dropLast ++ [edit chunk]

/-- `chunk.is_end_of_file = true` for the last chunk, if there is one. -/
def markEndOfFile (chunks : List UpdateFileChunk) : List UpdateFileChunk :=
  match chunks.getLast? with
  | none => chunks
  | some chunk => chunks.dropLast ++ [{ chunk with isEndOfFile := true }]

def isChangeContext (updateLine : String) : Bool :=
  updateLine == emptyChangeContextMarker || (stripLeading changeContextMarker updateLine).isSome

/-- A line of an update hunk that is no marker. -/
def processTextLine (lineNumber : Nat) (line : String) (chunks : List UpdateFileChunk) :
    Except ParseError (List UpdateFileChunk) :=
  if line = "" then .ok (editLastChunk (.pushContextLine "") chunks)
  else
    match stripLeading " " line with
    | some text => .ok (editLastChunk (.pushContextLine text) chunks)
    | none =>
      match stripLeading "+" line with
      | some text => .ok (editLastChunk (.pushNewLine text) chunks)
      | none =>
        match stripLeading "-" line with
        | some text => .ok (editLastChunk (.pushOldLine text) chunks)
        | none =>
          if chunks.getLast?.any fun chunk => !chunk.hasNoLines then
            .error (.invalidHunkError (expectedContextMessage line) lineNumber)
          else .error (.invalidHunkError (unexpectedLineMessage line) lineNumber)

/-- A line of an update hunk that is no hunk header: the destination and the chunks after
it. -/
def processUpdateLine (lineNumber : Nat) (line : String) (movePath : Option String)
    (chunks : List UpdateFileChunk) :
    Except ParseError (Option String × List UpdateFileChunk) :=
  let updateLine := trimEnd line
  let atEndOfFile := chunks.getLast?.any UpdateFileChunk.isEndOfFile
  let lastHasNoLines := chunks.getLast?.any UpdateFileChunk.hasNoLines
  if atEndOfFile && updateLine == "" then .ok (movePath, chunks)
  else if atEndOfFile && !isChangeContext updateLine then
    .error (.invalidHunkError (expectedContextMessage line) lineNumber)
  else
    match if chunks.isEmpty && movePath.isNone then stripLeading moveToMarker updateLine else none with
    | some destination => .ok (some destination, chunks)
    | none =>
      if isChangeContext updateLine && lastHasNoLines then
        .error (.invalidHunkError (unexpectedLineMessage line) lineNumber)
      else if updateLine = emptyChangeContextMarker then .ok (movePath, chunks ++ [.empty])
      else
        match stripLeading changeContextMarker updateLine with
        | some context =>
          .ok (movePath, chunks ++ [{ UpdateFileChunk.empty with changeContext := some context }])
        | none =>
          if updateLine = eofMarker then
            if lastHasNoLines then
              .error (.invalidHunkError "Update hunk does not contain any lines" lineNumber)
            else .ok (movePath, markEndOfFile chunks)
          else (processTextLine lineNumber line chunks).map fun chunks => (movePath, chunks)

/-! ### Lines -/

namespace LineParser

variable (parser : LineParser) (line : String) (trimmed : String)

def ensureUpdateHunkIsNotEmpty : Except ParseError Unit :=
  match parser.hunks.getLast? with
  | some (.updateFile path _ chunks) =>
    match chunks.getLast?, parser.mode with
    | none, .updateFile hunkLineNumber =>
      .error (.invalidHunkError ("Update file hunk for path '" ++ path ++ "' is empty") hunkLineNumber)
    | none, _ => .ok ()
    | some chunk, _ =>
      if chunk.hasNoLines then
        if line = endPatchMarker then
          .error (.invalidHunkError "Update hunk does not contain any lines" parser.lineNumber)
        else .error (.invalidHunkError (unexpectedLineMessage line) parser.lineNumber)
      else .ok ()
  | _ => .ok ()

/-- A header opens the next hunk once the one before is complete. -/
def openHunk (hunk : Hunk) (mode : StreamingParserMode) : Except ParseError (Option LineParser) :=
  (parser.ensureUpdateHunkIsNotEmpty trimmed).map fun _ =>
    some { parser with hunks := parser.hunks ++ [hunk], mode }

/-- `handle_hunk_headers_and_end_patch`; `none` if the line is neither. -/
def handleHunkHeadersAndEndPatch : Except ParseError (Option LineParser) :=
  match if parser.mode = .startedPatch then stripLeading environmentIdMarker trimmed else none with
  | some environmentId =>
    if parser.environmentId.isSome then
      .error (.invalidPatchError "apply_patch environment_id cannot be specified more than once")
    else if trim environmentId = "" then
      .error (.invalidPatchError "apply_patch environment_id cannot be empty")
    else .ok (some { parser with environmentId := some (trim environmentId) })
  | none =>
    if trimmed = endPatchMarker then
      (parser.ensureUpdateHunkIsNotEmpty trimmed).map fun _ => some { parser with mode := .endedPatch }
    else
      match stripLeading addFileMarker trimmed with
      | some path => parser.openHunk trimmed (.addFile path "") .addFile
      | none =>
        match stripLeading deleteFileMarker trimmed with
        | some path => parser.openHunk trimmed (.deleteFile path) .deleteFile
        | none =>
          match stripLeading updateFileMarker trimmed with
          | some path =>
            parser.openHunk trimmed (.updateFile path none []) (.updateFile parser.lineNumber)
          | none => .ok none

/-- The last hunk, changed in place. -/
def replaceLast (hunk : Hunk) : LineParser :=
  { parser with hunks := parser.hunks.dropLast ++ [hunk] }

def invalidHeader : Except ParseError LineParser :=
  .error (.invalidHunkError (invalidHeaderMessage trimmed) parser.lineNumber)

/-- A line of the add mode that is no header. -/
def processAddLine : Except ParseError LineParser :=
  match stripLeading "+" line, parser.hunks.getLast? with
  | some added, some (.addFile path contents) =>
    .ok (parser.replaceLast (.addFile path (contents ++ added ++ "\n")))
  | _, _ => parser.invalidHeader (trim line)

/-- A line of the update mode that is no header. -/
def processUpdateMode : Except ParseError LineParser :=
  match parser.hunks.getLast? with
  | some (.updateFile path movePath chunks) =>
    (processUpdateLine parser.lineNumber line movePath chunks).map fun (movePath, chunks) =>
      parser.replaceLast (.updateFile path movePath chunks)
  | _ => .error (.invalidHunkError (unexpectedLineMessage line) parser.lineNumber)

/-- A header, or else what the mode makes of the line. -/
def headerOr (other : Except ParseError LineParser) : Except ParseError LineParser :=
  match parser.handleHunkHeadersAndEndPatch trimmed with
  | .error error => .error error
  | .ok (some parser) => .ok parser
  | .ok none => other

def processLine : Except ParseError LineParser :=
  match parser.mode with
  | .notStarted =>
    if trim line = beginPatchMarker then .ok { parser with mode := .startedPatch }
    else .error firstLineError
  | .startedPatch => parser.headerOr (trim line) (parser.invalidHeader (trim line))
  | .addFile => parser.headerOr (trim line) (parser.processAddLine line)
  | .deleteFile => parser.headerOr (trim line) (parser.invalidHeader (trim line))
  | .updateFile _ => parser.headerOr (trimEnd line) (parser.processUpdateMode line)
  | .endedPatch => if trim line = "" then .ok parser else .error lastLineError

/-- A completed line of the stream. -/
def handleLine (line : List Char) : Except ParseError LineParser :=
  processLine { parser with lineNumber := parser.lineNumber + 1 }
    (ofList (stripCarriageReturn line))

end LineParser

/-! ### The stream -/

structure StreamingPatchParser extends LineParser where
  lineBuffer : List Char := []
deriving DecidableEq, Repr

namespace StreamingPatchParser

variable (parser : StreamingPatchParser)

/-- `push_delta`: the parser afterwards; the hunks that it returns are those of the parser. -/
def pushDelta (delta : String) : Except ParseError StreamingPatchParser :=
  (LineStream.feed LineParser.handleLine (parser.lineBuffer, parser.toLineParser)
    delta.toList).map fun (lineBuffer, state) => { state with lineBuffer }

/-- The unterminated last line, if there is one. -/
def finishLine : Except ParseError LineParser :=
  if parser.lineBuffer = [] then .ok parser.toLineParser
  else
    let line := ofList parser.lineBuffer
    let state := { parser.toLineParser with lineNumber := parser.lineNumber + 1 }
    if trim line = endPatchMarker then
      (state.ensureUpdateHunkIsNotEmpty (trim line)).map fun _ => { state with mode := .endedPatch }
    else state.processLine line

/-- `finish`: the parser afterwards; the hunks that it returns are those of the parser. -/
def finish : Except ParseError LineParser :=
  match parser.finishLine with
  | .error error => .error error
  | .ok state => if state.mode = .endedPatch then .ok state else .error lastLineError

/-- One delta after the other, up to the first error. -/
def pushDeltas (parser : StreamingPatchParser) : List String → Except ParseError StreamingPatchParser
  | [] => .ok parser
  | delta :: deltas =>
    match parser.pushDelta delta with
    | .error error => .error error
    | .ok parser => pushDeltas parser deltas

end StreamingPatchParser

/-- What a stream comes to: the hunks and the environment id. -/
structure StreamOutcome where
  hunks : List Hunk
  environmentId : Option String
deriving DecidableEq, Repr

/-- All deltas of a patch, and then `finish`. -/
def streamPatch (deltas : List String) : Except ParseError StreamOutcome :=
  match StreamingPatchParser.pushDeltas {} deltas with
  | .error error => .error error
  | .ok parser =>
    parser.finish.map fun state => { hunks := state.hunks, environmentId := state.environmentId }

end WeaveCodex.ApplyPatch
