/-
Purpose: The commands that need no approval: read-only programs without the options that
  write files or run other programs, and shell scripts made of such commands.
Trusted boundary: translation of `shell-command/src/command_safety/is_safe_command.rs` and the
  helpers that it shares with `is_dangerous_command.rs`, on Linux; the parser of scripts is a
  parameter
-/
import Mathlib.Data.List.DropRight
import WeaveCodex.ShellCommand.WordParser

namespace WeaveCodex.ShellCommand

def startsWith (lead text : String) : Bool := lead.toList.isPrefixOf text.toList

/-- The pieces of a text between the separators. -/
def splitOn (separator : Char) (text : String) : List String :=
  (text.toList.splitOnP (· = separator)).map String.ofList

/-- `Path::new(raw).file_name()`: the last component, if it is a name. -/
def executableNameLookupKey (raw : String) : Option String :=
  ((splitOn '/' raw).filter fun part => part ≠ "" ∧ part ≠ ".").getLast?.filter (· ≠ "..")

/-! ### Git -/

inductive GitOptionPattern where
  | exact (option : String)
  | shortWithInlineValue (option : String)
  | leading (text : String)

def GitOptionPattern.matchesArg (arg : String) : GitOptionPattern → Bool
  | .exact option => arg = option
  | .shortWithInlineValue option => startsWith option arg && arg ≠ option
  | .leading text => startsWith text arg

def unsafeGitGlobalOptions : List GitOptionPattern :=
  [.exact "-C", .shortWithInlineValue "-C", .exact "-c", .shortWithInlineValue "-c", .exact "-p",
    .exact "--config-env", .leading "--config-env=", .exact "--exec-path",
    .leading "--exec-path=", .exact "--git-dir", .leading "--git-dir=", .exact "--namespace",
    .leading "--namespace=", .exact "--paginate", .exact "--super-prefix",
    .leading "--super-prefix=", .exact "--work-tree", .leading "--work-tree="]

def unsafeGitSubcommandOptions : List GitOptionPattern :=
  [.exact "--output", .leading "--output=", .exact "--ext-diff", .exact "--textconv",
    .exact "--exec", .leading "--exec="]

def gitMatchesOptionPattern (patterns : List GitOptionPattern) (arg : String) : Bool :=
  patterns.any (GitOptionPattern.matchesArg arg)

def isGitGlobalOptionWithValue (arg : String) : Bool :=
  ["-C", "-c", "--config-env", "--exec-path", "--git-dir", "--namespace", "--super-prefix",
    "--work-tree"].contains arg

def isGitGlobalOptionWithInlineValue (arg : String) : Bool :=
  ["--config-env=", "--exec-path=", "--git-dir=", "--namespace=", "--super-prefix=",
    "--work-tree="].any (startsWith · arg) ||
    ((startsWith "-C" arg || startsWith "-c" arg) && 2 < arg.length)

/-- The loop of `find_git_subcommand`: the arguments before the subcommand, the subcommand
and the arguments after it. -/
def findGitSubcommand (subcommands : List String) :
    Bool → List String → List String → Option (List String × String × List String)
  | _, _, [] => none
  | true, before, arg :: args => findGitSubcommand subcommands false (before ++ [arg]) args
  | false, before, arg :: args =>
    if isGitGlobalOptionWithInlineValue arg then
      findGitSubcommand subcommands false (before ++ [arg]) args
    else if isGitGlobalOptionWithValue arg then
      findGitSubcommand subcommands true (before ++ [arg]) args
    else if startsWith "-" arg then findGitSubcommand subcommands false (before ++ [arg]) args
    else if subcommands.contains arg then some (before, arg, args)
    else none

def gitBranchIsReadOnly (branchArgs : List String) : Bool :=
  branchArgs.all fun arg =>
    ["--list", "-l", "--show-current", "-a", "--all", "-r", "--remotes", "-v", "-vv",
      "--verbose"].contains arg || startsWith "--format=" arg

/-- On the arguments of a command whose program is git. -/
def isSafeGitCommand (args : List String) : Bool :=
  match findGitSubcommand ["status", "log", "diff", "show", "branch"] false [] args with
  | none => false
  | some (globalArgs, subcommand, subcommandArgs) =>
    !globalArgs.any (gitMatchesOptionPattern unsafeGitGlobalOptions) &&
      !subcommandArgs.any (gitMatchesOptionPattern unsafeGitSubcommandOptions) &&
      (subcommand ≠ "branch" || gitBranchIsReadOnly subcommandArgs)

/-! ### Commands -/

/-- `10p` or `1,5p`. -/
def isValidSedNArg : Option String → Bool
  | none => false
  | some text =>
    let isNumber (part : String) := part ≠ "" && part.toList.all Char.isDigit
    if text.toList.getLast? = some 'p' then
      match splitOn ',' (String.ofList text.toList.dropLast) with
      | [number] => isNumber number
      | [first, last] => isNumber first && isNumber last
      | _ => false
    else false

def alwaysSafe : List String :=
  ["numfmt", "tac", "cat", "cd", "cut", "echo", "expr", "false", "grep", "head", "id", "ls", "nl",
    "paste", "pwd", "rev", "seq", "stat", "tail", "tr", "true", "uname", "uniq", "wc", "which",
    "whoami"]

def unsafeFindOptions : List String :=
  ["-exec", "-execdir", "-ok", "-okdir", "-delete", "-fls", "-fprint", "-fprint0", "-fprintf"]

def isSafeToCallWithExec : List String → Bool
  | [] => false
  | cmd0 :: args =>
    match executableNameLookupKey cmd0 with
    | none => false
    | some name =>
      if alwaysSafe.contains name then true
      else if name = "base64" then
        !args.any fun arg =>
          arg = "--output" || startsWith "--output=" arg || startsWith "-o" arg
      else if name = "find" then !(cmd0 :: args).any unsafeFindOptions.contains
      else if name = "rg" then
        !(cmd0 :: args).any fun arg =>
          ["--search-zip", "-z"].contains arg || ["--pre", "--hostname-bin"].any fun option =>
            arg = option || startsWith (option ++ "=") arg
      else if name = "git" then isSafeGitCommand args
      else name = "sed" && args.length ≤ 3 && args[0]? = some "-n" && isValidSedNArg args[1]?

/-! ### Scripts -/

/-- `file_stem` of a name: what stands before its last dot, unless that is its first
character. -/
def fileStem (name : String) : String :=
  match (splitOn '.' name).reverse with
  | _ :: rest@(_ :: _) =>
    let stem := String.intercalate "." rest.reverse
    if stem = "" then name else stem
  | _ => name

/-- `detect_shell_type` finds zsh, bash or sh. Each step takes away a directory or an
extension, so the length of the path bounds their number. -/
def isPosixShell : Nat → String → Bool
  | 0, _ => false
  | steps + 1, path =>
    if ["zsh", "sh", "bash"].contains path then true
    else if ["cmd", "pwsh", "powershell"].contains path then false
    else
      match executableNameLookupKey path with
      | none => false
      | some name =>
        -- As paths, a name with slashes behind it is the name.
        if path.toList.rdropWhile (· = '/') = (fileStem name).toList then false
        else isPosixShell steps (fileStem name)

def extractBashCommand : List String → Option String
  | [shell, flag, script] =>
    if (flag = "-lc" || flag = "-c") && isPosixShell (shell.length + 1) shell then some script
    else none
  | _ => none

/-- `is_known_safe_command`, with the parser of scripts. -/
def isKnownSafeCommand (tryParseShell : String → Option Tree) (command : List String) : Bool :=
  let command := command.map fun text => if text = "zsh" then "bash" else text
  isSafeToCallWithExec command ||
    match ((extractBashCommand command).bind tryParseShell).bind tryParseWordOnlyCommandsSequence with
    | some commands => commands ≠ [] && commands.all isSafeToCallWithExec
    | none => false

end WeaveCodex.ShellCommand
