/-
Purpose: The words of a script that holds only plain commands, read from its syntax tree,
  and the argument vectors that a POSIX shell makes of the same nodes.
Trusted boundary: translation of `shell-command/src/bash.rs`; the syntax tree is given, and the
  text of a node is its source slice. The argument vectors are those of words without
  expansions, where the shell only removes quotes and backslashes.
-/
import WeaveCodex.ApplyPatch.TextFile

namespace WeaveCodex.ShellCommand

/-- `program`, `list` or `pipeline`. -/
inductive Container where
  | program | list | pipeline
deriving DecidableEq, Repr

/-- A node of the tree. A command name has one child. -/
inductive Node where
  | container (kind : Container) (children : List Node)
  | command (startByte : Nat) (children : List Node)
  | commandName (child : Node)
  | word (text : String)
  | number (text : String)
  | string (text : String) (children : List Node)
  | stringContent
  | rawString (text : String)
  | concatenation (children : List Node)
  | otherNamed (kind : String) (children : List Node)
  /-- A token without a name. -/
  | token (kind : String)

structure Tree where
  rootNode : Node
  hasError : Bool

namespace Node

def isNamed : Node → Bool
  | .token _ => false
  | _ => true

def startByte : Node → Nat
  | .command startByte _ => startByte
  | _ => 0

mutual

/-- The order in which the stack of the walk gives the nodes: a node before its children,
and of these the last one first. -/
def walk : Node → List Node
  | .container kind children => .container kind children :: walkAll children
  | .command startByte children => .command startByte children :: walkAll children
  | .commandName child => .commandName child :: walk child
  | .string text children => .string text children :: walkAll children
  | .concatenation children => .concatenation children :: walkAll children
  | .otherNamed kind children => .otherNamed kind children :: walkAll children
  | node => [node]

def walkAll : List Node → List Node
  | [] => []
  | node :: nodes => walkAll nodes ++ walk node

end

def isCommand : Node → Bool
  | .command .. => true
  | _ => false

def allowedPunctTokens : List String := ["&&", "||", ";", "|", "\"", "'"]

def isAllowed : Node → Bool
  | .otherNamed .. => false
  | .token kind =>
    !(kind.toList.any ("&;|".toList.contains ·) && !allowedPunctTokens.contains kind) &&
      (allowedPunctTokens.contains kind || kind.toList.all ApplyPatch.isWhitespace)
  | _ => true

end Node

/-- The text between its first and its last character, if both are this quote. -/
def stripQuotes (quote : Char) (text : String) : Option String :=
  match text.toList with
  | first :: rest =>
    if first = quote ∧ rest.getLast? = some quote then some (String.ofList rest.dropLast) else none
  | [] => none

def parseDoubleQuotedString (text : String) (children : List Node) : Option String :=
  if (children.filter Node.isNamed).all (· matches .stringContent) then stripQuotes '"' text
  else none

def parseRawString (text : String) : Option String := stripQuotes '\'' text

/-- A word, a number or a string, which may be a part of a concatenation. -/
def parsePart : Node → Option String
  | .word text | .number text => some text
  | .string text children => parseDoubleQuotedString text children
  | .rawString text => parseRawString text
  | _ => none

def parseWord : Node → Option String
  | .commandName (.word text) => some text
  | .concatenation children =>
    match (children.filter Node.isNamed).mapM parsePart with
    | some parts => if String.join parts = "" then none else some (String.join parts)
    | none => none
  | node => parsePart node

def parsePlainCommandFromNode : Node → Option (List String)
  | .command _ children => (children.filter Node.isNamed).mapM parseWord
  | _ => none

/-- The command nodes in the order of the source. -/
def commandNodes (tree : Tree) : List Node :=
  (tree.rootNode.walk.filter Node.isCommand).mergeSort fun first second =>
    first.startByte ≤ second.startByte

def tryParseWordOnlyCommandsSequence (tree : Tree) : Option (List (List String)) :=
  if tree.hasError then none
  else if !tree.rootNode.walk.all Node.isAllowed then none
  else (commandNodes tree).mapM parsePlainCommandFromNode

/-! ### What a shell makes of the nodes -/

/-- Outside of quotes a backslash goes, and quotes the character after it; a newline goes
with it. -/
def removeBackslashes : List Char → List Char
  | '\\' :: '\n' :: rest => removeBackslashes rest
  | '\\' :: char :: rest | char :: rest => char :: removeBackslashes rest
  | [] => []

/-- In double quotes this is so before some characters only. -/
def removeDoubleQuotedBackslashes : List Char → List Char
  | '\\' :: '\n' :: rest => removeDoubleQuotedBackslashes rest
  | '\\' :: '$' :: rest => '$' :: removeDoubleQuotedBackslashes rest
  | '\\' :: '`' :: rest => '`' :: removeDoubleQuotedBackslashes rest
  | '\\' :: '"' :: rest => '"' :: removeDoubleQuotedBackslashes rest
  | '\\' :: '\\' :: rest => '\\' :: removeDoubleQuotedBackslashes rest
  | char :: rest => char :: removeDoubleQuotedBackslashes rest
  | [] => []

def shellPart : Node → List Char
  | .word text | .number text => removeBackslashes text.toList
  | .string text _ => removeDoubleQuotedBackslashes (text.toList.drop 1).dropLast
  | .rawString text => (text.toList.drop 1).dropLast
  | _ => []

def shellWord : Node → String
  | .commandName child => String.ofList (shellPart child)
  | .concatenation children =>
    String.ofList ((children.filter Node.isNamed).flatMap shellPart)
  | node => String.ofList (shellPart node)

/-- The argument vector of a command. -/
def shellArgv : Node → List String
  | .command _ children => (children.filter Node.isNamed).map shellWord
  | _ => []

/-! ### Escapes -/

/-- A backslash with a character after it. -/
def hasEscape : List Char → Bool
  | '\\' :: _ :: _ => true
  | _ :: rest => hasEscape rest
  | [] => false

/-- A backslash that double quotes take away. -/
def hasDoubleQuotedEscape : List Char → Bool
  | '\\' :: char :: rest =>
    ['\n', '$', '`', '"', '\\'].contains char || hasDoubleQuotedEscape (char :: rest)
  | _ :: rest => hasDoubleQuotedEscape rest
  | [] => false

def partEscapeFree : Node → Bool
  | .word text | .number text => !hasEscape text.toList
  | .string text _ => !hasDoubleQuotedEscape (text.toList.drop 1).dropLast
  | _ => true

def wordEscapeFree : Node → Bool
  | .commandName child => partEscapeFree child
  | .concatenation children => (children.filter Node.isNamed).all partEscapeFree
  | node => partEscapeFree node

/-- No word of a command has a backslash that a shell takes away. -/
def escapeFree : Node → Bool
  | .command _ children => (children.filter Node.isNamed).all wordEscapeFree
  | _ => true

end WeaveCodex.ShellCommand
