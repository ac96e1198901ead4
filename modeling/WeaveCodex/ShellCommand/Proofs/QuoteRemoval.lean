/-
Purpose: The words that are read from a script are the argument vectors of a shell exactly
  if none of them has a backslash that a shell takes away, and then safe words are safe
  commands.
-/
import WeaveCodex.ShellCommand.SafeCommand

namespace WeaveCodex.ShellCommand

open Option String List Nat

/-- The shell makes a shorter text of one with an escape, and leaves any other one alone. -/
def Shortens (read made : List Char) (free : Bool) : Prop :=
  (free = true → made = read) ∧ (free = false → made.length < read.length)

namespace Shortens

variable {read made : List Char} {free : Bool}

section

variable (shortens : Shortens read made free)
include shortens

theorem length_le : made.length ≤ read.length := by
  cases free with
  | true => rw [shortens.1 rfl]
  | false => exact le_of_lt (shortens.2 rfl)

theorem eq_iff : made = read ↔ free = true := by
  refine ⟨fun same => ?_, shortens.1⟩
  cases free with
  | true => rfl
  | false => exact absurd (shortens.2 rfl) (by rw [same]; exact lt_irrefl _)

theorem cons (char : Char) : Shortens (char :: read) (char :: made) free :=
  ⟨fun is => by rw [shortens.1 is], fun is => succ_lt_succ (shortens.2 is)⟩

end

theorem append {read' made' : List Char} {free' : Bool} (first : Shortens read made free)
    (second : Shortens read' made' free') :
    Shortens (read ++ read') (made ++ made') (free && free') := by
  have firstWithin := first.length_le
  have secondWithin := second.length_le
  cases free with
  | true =>
    cases free' with
    | true => exact ⟨fun _ => by rw [first.1 rfl, second.1 rfl], nofun⟩
    | false =>
      have shorter := second.2 rfl
      exact ⟨nofun, fun _ => by rw [List.length_append, List.length_append]; omega⟩
  | false =>
    have shorter := first.2 rfl
    exact ⟨nofun, fun _ => by rw [List.length_append, List.length_append]; omega⟩

end Shortens

theorem shortens_removeBackslashes (text : List Char) :
    Shortens text (removeBackslashes text) (!hasEscape text) := by
  fun_induction removeBackslashes text with
  | case1 _ ih | case2 _ _ _ ih =>
    have within := ih.length_le
    exact ⟨nofun, fun _ => by simp only [length_cons]; omega⟩
  | case3 char rest _ noOther ih =>
    have same : hasEscape (char :: rest) = hasEscape rest := by
      rw [hasEscape]
      rintro _ _ rfl rfl
      exact noOther _ _ rfl rfl
    rw [same]
    exact ih.cons char
  | case4 => exact ⟨fun _ => rfl, nofun⟩

/-- Exactly an escape in double quotes makes the text shorter. -/
theorem shortens_removeDoubleQuotedBackslashes (text : List Char) :
    Shortens text (removeDoubleQuotedBackslashes text) (!hasDoubleQuotedEscape text) := by
  fun_induction removeDoubleQuotedBackslashes text with
  | case7 => exact ⟨fun _ => rfl, nofun⟩
  | case6 char rest newline dollar tick quote backslash ih =>
    have same : hasDoubleQuotedEscape (char :: rest) = hasDoubleQuotedEscape rest := by
      by_cases escapes : char = '\\'
      · subst escapes
        cases rest with
        | nil => rfl
        | cons next rest =>
          have plain : ['\n', '$', '`', '"', '\\'].contains next = false := by
            simp only [contains_cons, contains_nil, Bool.or_false, Bool.or_eq_false_iff,
              beq_eq_false_iff_ne]
            exact ⟨fun is => newline rest rfl (is ▸ rfl), fun is => dollar rest rfl (is ▸ rfl),
              fun is => tick rest rfl (is ▸ rfl), fun is => quote rest rfl (is ▸ rfl),
              fun is => backslash rest rfl (is ▸ rfl)⟩
          rw [hasDoubleQuotedEscape, plain, Bool.false_or]
      · rw [hasDoubleQuotedEscape]
        rintro _ _ is
        contradiction
    rw [same]
    exact ih.cons char
  | case1 _ ih | case2 _ ih | case3 _ ih | case4 _ ih | case5 _ ih =>
    have within := ih.length_le
    exact ⟨nofun, fun _ => by simp only [length_cons]; omega⟩

/-! ### Words -/

theorem toList_of_stripQuotes {quote : Char} {text inner : String}
    (stripped : stripQuotes quote text = some inner) :
    inner.toList = (text.toList.drop 1).dropLast := by
  unfold stripQuotes at stripped
  split at stripped
  · rename_i is
    split at stripped
    · rw [← Option.some.inj stripped, toList_ofList, is]
      rfl
    · cases stripped
  · cases stripped

variable {node : Node} {tree : Tree}

theorem shortens_parsePart {read : String} (parsed : parsePart node = some read) :
    Shortens read.toList (shellPart node) (partEscapeFree node) := by
  cases node with
  | word | number =>
    cases parsed
    exact shortens_removeBackslashes _
  | string =>
    rw [parsePart, parseDoubleQuotedString] at parsed
    split at parsed
    · rw [toList_of_stripQuotes parsed]
      exact shortens_removeDoubleQuotedBackslashes _
    · cases parsed
  | rawString =>
    rw [toList_of_stripQuotes parsed]
    exact ⟨fun _ => rfl, nofun⟩
  | _ => cases parsed

theorem shortens_parts {nodes : List Node} {parts : List String}
    (parsed : nodes.mapM parsePart = some parts) :
    Shortens (join parts).toList (nodes.flatMap shellPart) (nodes.all partEscapeFree) := by
  induction nodes generalizing parts with
  | nil =>
    cases parsed
    exact ⟨fun _ => rfl, nofun⟩
  | cons _ _ ih =>
    rw [mapM_cons] at parsed
    obtain ⟨first, here, rest⟩ := bind_eq_some_iff.mp parsed
    obtain ⟨others, there, is⟩ := bind_eq_some_iff.mp rest
    cases is
    have joined : (join (first :: others)).toList =
        first.toList ++ (join others).toList := by
      rw [join_cons, toList_append]
    rw [joined, flatMap_cons, all_cons]
    exact (shortens_parsePart here).append (ih there)

/-- A word is read as the shell makes it exactly if it has no escape. -/
theorem parseWord_eq_iff {read : String} (parsed : parseWord node = some read) :
    read = shellWord node ↔ wordEscapeFree node = true := by
  have decided {made : List Char} {free : Bool} (shortens : Shortens read.toList made free) :
      read = ofList made ↔ free = true := by
    rw [← shortens.eq_iff, ← toList_inj, toList_ofList, eq_comm]
  cases node with
  | commandName child =>
    cases child with
    | word =>
      cases parsed
      exact decided (shortens_removeBackslashes _)
    | _ => cases parsed
  | concatenation =>
    rw [parseWord] at parsed
    split at parsed
    · rename_i found
      split at parsed
      · cases parsed
      · cases parsed
        exact decided (shortens_parts found)
    · cases parsed
  | _ => exact decided (shortens_parsePart parsed)

/-- A list that is read element by element is right if each element is. -/
theorem mapM_eq_map_iff {α β : Type*} {read : α → Option β} {made : α → β} {free : α → Bool}
    (each : ∀ {value : α} {result : β}, read value = some result →
      (result = made value ↔ free value = true))
    {values : List α} {results : List β} (parsed : values.mapM read = some results) :
    results = values.map made ↔ values.all free = true := by
  induction values generalizing results with
  | nil =>
    cases parsed
    exact iff_of_true rfl rfl
  | cons _ _ ih =>
    rw [mapM_cons] at parsed
    obtain ⟨_, here, rest⟩ := bind_eq_some_iff.mp parsed
    obtain ⟨_, there, is⟩ := bind_eq_some_iff.mp rest
    cases is
    rw [map_cons, List.cons.injEq, all_cons, Bool.and_eq_true, each here, ih there]

theorem parsePlainCommand_eq_iff {words : List String}
    (parsed : parsePlainCommandFromNode node = some words) :
    words = shellArgv node ↔ escapeFree node = true := by
  cases node with
  | command => exact mapM_eq_map_iff parseWord_eq_iff parsed
  | _ => cases parsed

theorem tryParse_eq_iff {commands : List (List String)}
    (accepted : tryParseWordOnlyCommandsSequence tree = some commands) :
    commands = (commandNodes tree).map shellArgv ↔ (commandNodes tree).all escapeFree = true := by
  unfold tryParseWordOnlyCommandsSequence at accepted
  split at accepted
  · cases accepted
  · split at accepted
    · cases accepted
    · exact mapM_eq_map_iff parsePlainCommand_eq_iff accepted

/-! ### Scripts -/

theorem bash_not_safe (args : List String) : isSafeToCallWithExec ("bash" :: args) = false := by
  have name : executableNameLookupKey "bash" = some "bash" := by decide +kernel
  rw [isSafeToCallWithExec, name]
  rfl

theorem isKnownSafeCommand_script (tryParseShell : String → Option Tree) (script : String) :
    isKnownSafeCommand tryParseShell ["bash", "-lc", script] =
      ((tryParseShell (if script = "zsh" then "bash" else script)).bind
        tryParseWordOnlyCommandsSequence).any fun commands =>
          commands ≠ [] && commands.all isSafeToCallWithExec := by
  have shell : extractBashCommand ["bash", "-lc", if script = "zsh" then "bash" else script] =
      some (if script = "zsh" then "bash" else script) := rfl
  have command : ["bash", "-lc", script].map (fun text => if text = "zsh" then "bash" else text) =
      ["bash", "-lc", if script = "zsh" then "bash" else script] := by simp
  rw [isKnownSafeCommand, command, shell, bash_not_safe, Bool.false_or, bind_some]
  generalize (tryParseShell _).bind _ = read
  cases read <;> rfl

/-- For every accepted script: its words are the argument vectors that a shell runs, and a
known safe script runs only safe ones, exactly if no word has a backslash that the shell
takes away. Of the parser it is used that `bash` alone is one word. -/
theorem parsedWords_iff (tryParseShell : String → Option Tree) (script : String) (tree : Tree)
    (commands : List (List String)) (parsed : tryParseShell script = some tree)
    (accepted : tryParseWordOnlyCommandsSequence tree = some commands)
    (oneWord : (tryParseShell "bash").bind tryParseWordOnlyCommandsSequence = some [["bash"]]) :
    (commands = (commandNodes tree).map shellArgv ∧
      (isKnownSafeCommand tryParseShell ["bash", "-lc", script] = true →
        ∀ argv ∈ (commandNodes tree).map shellArgv, isSafeToCallWithExec argv = true)) ↔
      (commandNodes tree).all escapeFree = true := by
  rw [← tryParse_eq_iff accepted, isKnownSafeCommand_script]
  refine ⟨And.left, fun same => ⟨same, fun safe argv member => ?_⟩⟩
  rw [← same] at member
  by_cases isZsh : script = "zsh"
  · -- The script is read as `bash`, which is not safe.
    simp [isZsh, oneWord, bash_not_safe] at safe
  · simp only [if_neg isZsh, parsed, bind_some, accepted, any_some, Bool.and_eq_true,
      List.all_eq_true] at safe
    exact safe.2 argv member

/-- The tree of a command with these words. -/
def plainTree (name : String) (args : List String) : Tree :=
  { rootNode := .container .program [.command 0 (.commandName (.word name) :: args.map .word)]
    hasError := false }

theorem commandNodes_eq (one : tree.rootNode.walk.filter Node.isCommand = [node]) :
    commandNodes tree = [node] := by
  rw [commandNodes, one, mergeSort_singleton]

theorem tryParse_bash : tryParseWordOnlyCommandsSequence (plainTree "bash" []) = some [["bash"]] := by
  rw [tryParseWordOnlyCommandsSequence, commandNodes_eq rfl]
  rfl

/-- The tree of a script with both kinds of quotes; any other script is taken for one word. -/
def quotedTree : String → Tree
  | "grep -n 'a\\b' \"my file\"" =>
    { rootNode := .container .program [.command 0 [.commandName (.word "grep"), .word "-n",
        .rawString "'a\\b'", .string "\"my file\"" [.token "\"", .stringContent, .token "\""]]]
      hasError := false }
  | word => plainTree word []

/-- Single quotes keep the backslash, and double quotes the blank. -/
theorem quotedScript_read : [["grep", "-n", "a\\b", "my file"]] =
      (commandNodes (quotedTree "grep -n 'a\\b' \"my file\"")).map shellArgv ∧
    (isKnownSafeCommand (fun script => some (quotedTree script))
        ["bash", "-lc", "grep -n 'a\\b' \"my file\""] = true →
      ∀ argv ∈ (commandNodes (quotedTree "grep -n 'a\\b' \"my file\"")).map shellArgv,
        isSafeToCallWithExec argv = true) := by
  refine (parsedWords_iff (fun script => some (quotedTree script)) _ _ _ rfl ?_ tryParse_bash).mpr ?_
  · rw [tryParseWordOnlyCommandsSequence, commandNodes_eq rfl]
    decide +kernel
  · rw [commandNodes_eq rfl]
    decide +kernel

/-- The tree of the script `find . \-delete`; any other script is taken for one word. -/
def deleteTree : String → Tree
  | "find . \\-delete" => plainTree "find" [".", "\\-delete"]
  | word => plainTree word []

/-- The script is known to be safe, and a shell runs `find` with `-delete`. -/
theorem escapedDelete_runs : isKnownSafeCommand (fun script => some (deleteTree script))
        ["bash", "-lc", "find . \\-delete"] = true ∧
      (commandNodes (deleteTree "find . \\-delete")).map shellArgv = [["find", ".", "-delete"]] ∧
      isSafeToCallWithExec ["find", ".", "-delete"] = false := by
  refine ⟨?_, ?_, ?_⟩
  · rw [isKnownSafeCommand_script, bind_some, tryParseWordOnlyCommandsSequence, commandNodes_eq rfl]
    decide +kernel
  · rw [commandNodes_eq rfl]
    decide +kernel
  · decide +kernel

end WeaveCodex.ShellCommand
