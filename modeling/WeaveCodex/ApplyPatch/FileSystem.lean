/-
Purpose: A file system of regular text files, with faults: any call may fail, a failed
  write may have changed its target in any way, and a failed removal may have removed.
Trusted boundary: a call without a fault is a lookup, an insertion or an erasure at its
  path; every path is free, a regular text file, or not readable at all
-/
import Mathlib.Logic.Function.Basic

namespace WeaveCodex.ApplyPatch

universe u

/-- The text files by path. -/
abbrev Files (Path : Type u) := Path → Option String

/-- The kinds of `io::ErrorKind` that the code tells apart. -/
inductive IoErrorKind where
  | notFound | invalidInput | other
deriving DecidableEq, Repr

/-- `io::Error`. -/
structure IoError where
  kind : IoErrorKind
  message : String
deriving DecidableEq, Repr

structure Metadata where
  isFile : Bool
  isDirectory : Bool
  isSymlink : Bool
deriving DecidableEq, Repr

/-- What the n-th call to the file system suffers, if anything. -/
structure Faults where
  metadata : Nat → Option IoError := fun _ => none
  read : Nat → Option IoError := fun _ => none
  createDirectory : Nat → Option IoError := fun _ => none
  /-- A failed write, and what its target holds afterwards; `none` leaves it alone. -/
  write : Nat → Option (IoError × Option (Option String)) := fun _ => none
  /-- A failed removal, and whether the file is gone. -/
  remove : Nat → Option (IoError × Bool) := fun _ => none

/-- No call fails. -/
def Faults.none : Faults := {}

/-- The files and the number of calls so far. -/
structure World (Path : Type u) where
  files : Files Path
  calls : Nat := 0

namespace World

variable {Path : Type u} [DecidableEq Path]

def missing : IoError :=
  { kind := .notFound, message := "No such file or directory" }

variable (faults : Faults) (world : World Path) (path : Path)

/-- One more call has been made. -/
def tick : World Path :=
  { world with calls := world.calls + 1 }

/-- The file at `path` now has these contents, or is gone. -/
def put (contents : Option String) : World Path :=
  { world with files := Function.update world.files path contents }

/-- `fs.get_metadata`. -/
def getMetadata : Except IoError Metadata × World Path :=
  match faults.metadata world.calls with
  | some error => (.error error, world.tick)
  | none =>
    match world.files path with
    | some _ => (.ok { isFile := true, isDirectory := false, isSymlink := false }, world.tick)
    | none => (.error missing, world.tick)

/-- `fs.read_file_text`. -/
def readFileText : Except IoError String × World Path :=
  match faults.read world.calls with
  | some error => (.error error, world.tick)
  | none =>
    match world.files path with
    | some contents => (.ok contents, world.tick)
    | none => (.error missing, world.tick)

/-- `fs.create_directory`, which changes no file. -/
def createDirectory (faults : Faults) (world : World Path) : Except IoError Unit × World Path :=
  match faults.createDirectory world.calls with
  | some error => (.error error, world.tick)
  | none => (.ok (), world.tick)

/-- `fs.write_file`. -/
def writeFile (contents : String) : Except IoError Unit × World Path :=
  match faults.write world.calls with
  | none => (.ok (), (world.put path (some contents)).tick)
  | some (error, none) => (.error error, world.tick)
  | some (error, some left) => (.error error, (world.put path left).tick)

/-- `fs.remove`, neither recursive nor forced. -/
def remove (faults : Faults) (world : World Path) (path : Path) : Except IoError Unit × World Path :=
  match faults.remove world.calls with
  | some (error, gone) =>
    (.error error, (if gone then world.put path none else world).tick)
  | none =>
    match world.files path with
    | some _ => (.ok (), (world.put path none).tick)
    | none => (.error missing, world.tick)

end World

end WeaveCodex.ApplyPatch
