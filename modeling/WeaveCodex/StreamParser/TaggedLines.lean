/-
Purpose: The parser of tags that stand alone on a line of streamed text, which holds a line
  back as long as it may become a tag, and the meaning of the lines of a whole text.
Trusted boundary: translation of `utils/stream-parser/src/tagged_line_parser.rs`
-/
import Mathlib.Data.List.DropRight
import WeaveCodex.ApplyPatch.TextFile

namespace WeaveCodex.StreamParser

open ApplyPatch (isWhitespace)

variable {T : Type*} [DecidableEq T]

structure TagSpec (T : Type*) where
  opening : List Char
  closing : List Char
  tag : T

inductive TaggedLineSegment (T : Type*) where
  | normal (text : List Char)
  | tagStart (tag : T)
  | tagDelta (tag : T) (text : List Char)
  | tagEnd (tag : T)
deriving DecidableEq, Repr

structure TaggedLineParser (T : Type*) where
  specs : List (TagSpec T)
  activeTag : Option T := none
  detectTag : Bool := true
  lineBuffer : List Char := []

def trimStart (text : List Char) : List Char := text.dropWhile isWhitespace

def trimEnd (text : List Char) : List Char := text.rdropWhile isWhitespace

/-- `line.strip_suffix('\n')`, if it has one. -/
def withoutNewline (line : List Char) : List Char :=
  if line.getLast? = some '\n' then line.dropLast else line

/-- Text that follows text of the same kind joins it. -/
def pushSegment (segments : List (TaggedLineSegment T)) :
    TaggedLineSegment T → List (TaggedLineSegment T)
  | .normal delta =>
    if delta = [] then segments
    else
      match segments.getLast? with
      | some (.normal existing) => segments.dropLast ++ [.normal (existing ++ delta)]
      | _ => segments ++ [.normal delta]
  | .tagDelta tag delta =>
    if delta = [] then segments
    else
      match segments.getLast? with
      | some (.tagDelta existingTag existing) =>
        if existingTag = tag then segments.dropLast ++ [.tagDelta existingTag (existing ++ delta)]
        else segments ++ [.tagDelta tag delta]
      | _ => segments ++ [.tagDelta tag delta]
  | .tagStart tag => segments ++ [.tagStart tag]
  | .tagEnd tag => segments ++ [.tagEnd tag]

/-- Segments with adjacent texts joined. -/
def mergeSegments (segments : List (TaggedLineSegment T)) : List (TaggedLineSegment T) :=
  segments.foldl pushSegment []

/-- Text inside or outside of a tag. -/
def textSegment (activeTag : Option T) (text : List Char) : TaggedLineSegment T :=
  match activeTag with
  | some tag => .tagDelta tag text
  | none => .normal text

variable (specs : List (TagSpec T)) (slug : List Char)

def isTagPrefix : Bool :=
  let slug := trimEnd slug
  specs.any fun spec => slug.isPrefixOf spec.opening || slug.isPrefixOf spec.closing

def matchOpen : Option T :=
  (specs.find? fun spec => spec.opening = slug).map TagSpec.tag

def matchClose : Option T :=
  (specs.find? fun spec => spec.closing = slug).map TagSpec.tag

namespace TaggedLineParser

variable (parser : TaggedLineParser T)

def pushText (text : List Char) (segments : List (TaggedLineSegment T)) : List (TaggedLineSegment T) :=
  pushSegment segments (textSegment parser.activeTag text)

/-- The tag that the line opens or closes, or its text. -/
def handleLine (line : List Char) (segments : List (TaggedLineSegment T)) :
    TaggedLineParser T × List (TaggedLineSegment T) :=
  let slug := trimEnd (trimStart (withoutNewline line))
  match matchOpen parser.specs slug, parser.activeTag with
  | some tag, none => ({ parser with activeTag := some tag }, pushSegment segments (.tagStart tag))
  | _, activeTag =>
    match matchClose parser.specs slug with
    | some tag =>
      if activeTag = some tag then
        ({ parser with activeTag := none }, pushSegment segments (.tagEnd tag))
      else (parser, parser.pushText line segments)
    | none => (parser, parser.pushText line segments)

def finishLine (segments : List (TaggedLineSegment T)) :
    TaggedLineParser T × List (TaggedLineSegment T) :=
  { parser with lineBuffer := [], detectTag := true }.handleLine parser.lineBuffer segments

/-- The variables of the loop of `parse`. -/
structure Loop (T : Type*) where
  parser : TaggedLineParser T
  run : List Char := []
  segments : List (TaggedLineSegment T) := []

def parseChar (loop : Loop T) (char : Char) : Loop T :=
  let parser := loop.parser
  if parser.detectTag then
    let segments :=
      if loop.run = [] then loop.segments else parser.pushText loop.run loop.segments
    let lineBuffer := parser.lineBuffer ++ [char]
    if char = '\n' then
      let finished := { parser with lineBuffer }.finishLine segments
      { parser := finished.1, segments := finished.2 }
    else
      let slug := trimStart lineBuffer
      if slug = [] ∨ isTagPrefix parser.specs slug = true then
        { parser := { parser with lineBuffer }, segments }
      else
        { parser := { parser with lineBuffer := [], detectTag := false }
          segments := parser.pushText lineBuffer segments }
  else
    let run := loop.run ++ [char]
    if char = '\n' then
      { parser := { parser with detectTag := true }, segments := parser.pushText run loop.segments }
    else { loop with run }

def parse (delta : List Char) : TaggedLineParser T × List (TaggedLineSegment T) :=
  let loop := delta.foldl parseChar { parser }
  (loop.parser,
    if loop.run = [] then loop.segments else loop.parser.pushText loop.run loop.segments)

def finish : TaggedLineParser T × List (TaggedLineSegment T) :=
  let handled :=
    if parser.lineBuffer = [] then (parser, [])
    else { parser with lineBuffer := [] }.handleLine parser.lineBuffer []
  match handled.1.activeTag with
  | some tag =>
    ({ handled.1 with activeTag := none, detectTag := true }, pushSegment handled.2 (.tagEnd tag))
  | none => ({ handled.1 with detectTag := true }, handled.2)

end TaggedLineParser

/-! ### The whole text -/

/-- The lines of a text, each with its newline; the last one may have none. -/
def splitLines : List Char → List (List Char)
  | [] => []
  | char :: chars =>
    if char = '\n' then ['\n'] :: splitLines chars
    else
      match splitLines chars with
      | [] => [[char]]
      | line :: lines => (char :: line) :: lines

/-- The marker that a line is: an opening tag outside of a tag, or the closing tag of the
open one. -/
def lineMarker (specs : List (TagSpec T)) (activeTag : Option T) (line : List Char) :
    Option (TaggedLineSegment T × Option T) :=
  let slug := trimEnd (trimStart line)
  match activeTag with
  | none => (matchOpen specs slug).map fun tag => (.tagStart tag, some tag)
  | some activeTag =>
    if matchClose specs slug = some activeTag then some (.tagEnd activeTag, none) else none

/-- What the lines of a text mean; an open tag is closed at the end. -/
def lineSegments (specs : List (TagSpec T)) : Option T → List (List Char) → List (TaggedLineSegment T)
  | none, [] => []
  | some activeTag, [] => [.tagEnd activeTag]
  | activeTag, line :: lines =>
    match lineMarker specs activeTag line with
    | some (segment, activeTag) => segment :: lineSegments specs activeTag lines
    | none => textSegment activeTag line :: lineSegments specs activeTag lines

end WeaveCodex.StreamParser
