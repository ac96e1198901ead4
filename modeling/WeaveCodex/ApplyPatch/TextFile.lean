/-
Purpose: Text as lines: splitting and joining, and source files that remember the ending
  of every line.
Trusted boundary: texts are lists of characters, where the source counts bytes; line
  endings and the positions between lines are the same in both
-/
import Mathlib.Data.List.Sort

namespace WeaveCodex.ApplyPatch

/-- `char::is_whitespace`. -/
def isWhitespace (char : Char) : Bool :=
  let code := char.toNat
  (9 ≤ code && code ≤ 13) || code == 0x20 || code == 0x85 || code == 0xA0 || code == 0x1680 ||
    (0x2000 ≤ code && code ≤ 0x200A) || code == 0x2028 || code == 0x2029 || code == 0x202F ||
    code == 0x205F || code == 0x3000

/-- `text.trim_end()`. -/
def trimEnd (text : String) : String :=
  String.ofList (text.toList.reverse.dropWhile isWhitespace).reverse

/-- `text.trim()`. -/
def trim (text : String) : String :=
  trimEnd (String.ofList (text.toList.dropWhile isWhitespace))

/-- The pieces between the newlines; `piece` holds the characters of the current one. -/
def splitLinesFrom (piece : List Char) : List Char → List (List Char)
  | [] => [piece]
  | char :: chars =>
    if char = '\n' then piece :: splitLinesFrom [] chars
    else splitLinesFrom (piece ++ [char]) chars

/-- `text.split('\n')`. -/
def splitLines (text : String) : List String :=
  (splitLinesFrom [] text.toList).map String.ofList

/-- `line.strip_suffix('\r')`, if it has one. -/
def stripCarriageReturn (line : List Char) : List Char :=
  if line.getLast? = some '\r' then line.dropLast else line

/-- `text.lines()`: a line ends with a newline, and one carriage return before the newline
belongs to the ending. -/
def strLines (text : String) : List String :=
  let pieces := splitLinesFrom [] text.toList
  let unterminated := (pieces.getLast?.filter fun piece => !piece.isEmpty).toList
  (pieces.dropLast.map stripCarriageReturn ++ unterminated).map String.ofList

/-- `text.strip_prefix(marker)`. -/
def stripLeading (marker text : String) : Option String :=
  if marker.toList.isPrefixOf text.toList then
    some (String.ofList (text.toList.drop marker.toList.length))
  else none

/-- The characters before and after the first place where `delimiter` stands. -/
def splitOnceChars (delimiter : List Char) : List Char → Option (List Char × List Char)
  | [] => if delimiter = [] then some ([], []) else none
  | char :: chars =>
    if delimiter.isPrefixOf (char :: chars) then
      some ([], (char :: chars).drop delimiter.length)
    else (splitOnceChars delimiter chars).map fun halves => (char :: halves.1, halves.2)

/-- `text.split_once(delimiter)`. -/
def splitOnce (delimiter text : String) : Option (String × String) :=
  (splitOnceChars delimiter.toList text.toList).map fun halves =>
    (String.ofList halves.1, String.ofList halves.2)

/-- `lines.join("\n")`. -/
def joinLines (lines : List String) : String :=
  String.intercalate "\n" lines

/-- `lines.last().is_some_and(String::is_empty)`. -/
def endsEmpty (lines : List String) : Bool :=
  lines.getLast? = some ""

/-- `(start_index, old_len, new_lines)`. -/
structure Replacement where
  start : Nat
  oldLength : Nat
  newLines : List String
deriving DecidableEq, Repr

/-! ### Source files -/

inductive LineEnding where
  | lf | crLf | cr
deriving DecidableEq, Repr

def LineEnding.text : LineEnding → String
  | .lf => "\n"
  | .crLf => "\r\n"
  | .cr => "\r"

structure SourceLine where
  text : String
  ending : Option LineEnding
deriving DecidableEq, Repr

structure SourceFile where
  lines : List SourceLine
  preferredEnding : LineEnding
deriving DecidableEq, Repr

namespace SourceFile

/-- The lines of the rest of a file; `text` holds the characters of the current line. -/
def parseFrom (text : List Char) : List Char → List SourceLine
  | [] => if text = [] then [] else [⟨String.ofList text, none⟩]
  | '\r' :: '\n' :: chars => ⟨String.ofList text, some .crLf⟩ :: parseFrom [] chars
  | '\r' :: chars => ⟨String.ofList text, some .cr⟩ :: parseFrom [] chars
  | '\n' :: chars => ⟨String.ofList text, some .lf⟩ :: parseFrom [] chars
  | char :: chars => parseFrom (text ++ [char]) chars

def parse (contents : String) : SourceFile :=
  let lines := parseFrom [] contents.toList
  { lines, preferredEnding := (lines.findSome? SourceLine.ending).getD .lf }

def lineTexts (file : SourceFile) : List String :=
  file.lines.map SourceLine.text

/-- The lines after the replacements, from the lines that are left of the source. -/
def replaceFrom (preferred : LineEnding) (sourceIndex : Nat) (source : List SourceLine) :
    List Replacement → List SourceLine
  | [] => source
  | replacement :: later =>
    let kept := replacement.start - sourceIndex
    source.take kept ++ replacement.newLines.map (fun text => ⟨text, some preferred⟩) ++
      replaceFrom preferred (replacement.start + replacement.oldLength)
        ((source.drop kept).drop replacement.oldLength) later

def applyReplacements (file : SourceFile) (replacements : List Replacement) : SourceFile :=
  { file with
    lines := (replaceFrom file.preferredEnding 0 file.lines replacements).map fun line =>
      { line with ending := some (line.ending.getD file.preferredEnding) } }

def intoContents (file : SourceFile) : String :=
  String.join (file.lines.map fun line => line.text ++ (line.ending.map LineEnding.text).getD "")

end SourceFile

end WeaveCodex.ApplyPatch
