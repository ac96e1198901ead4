/-
Purpose: The store of uploaded attachments: a batch is checked as a whole and then written
  into a fresh directory.
Trusted boundary: translation of `weave_codex/uploads.py` on POSIX, where file names are UTF-8
  with escaped surrogates; `str.casefold` and the base64 decoder are parameters, and
  `shutil.rmtree` succeeds
-/
import Mathlib.Data.List.DropRight
import WeaveCodex.ControlPlane.Json

namespace WeaveCodex.ControlPlane.Uploads

/-- A Python text as code points; surrogates may stand alone. -/
abbrev PyText : Type := List Nat

abbrev Content : Type := List UInt8

def codes (text : String) : PyText := text.toList.map Char.toNat

/-- A JSON value: a text, or another value with its truth value and its `str`. -/
inductive Value where
  | text (chars : PyText)
  | other (truthy : Bool) (shown : PyText)
deriving DecidableEq

/-- A member of `files`, with what `get` finds in an object. -/
inductive Item where
  | other
  | object (name contentBase64 : Option Value)
deriving DecidableEq

structure Tools where
  casefold : PyText → PyText
  b64decode : PyText → Option Content

inductive Error where
  | valueError (message : PyText)
  | osError
  | unicodeEncodeError
deriving DecidableEq

/-! ### Checks -/

/-- `str(value or "")`. -/
def orEmpty : Option Value → PyText
  | some (.text chars) => chars
  | some (.other true shown) => shown
  | _ => []

def strip (text : PyText) : PyText :=
  let space (code : Nat) := isSpace (Char.ofNat code)
  (text.dropWhile space).rdropWhile space

/-- `Path(name).name`. -/
def pathName (name : PyText) : PyText :=
  ((name.splitOn 47).filter fun part => part ≠ [] ∧ part ≠ codes ".").getLastD []

def safeName (value : Option Value) : Except Error PyText :=
  let name := strip (orEmpty value)
  if name = [] ∨ name = codes "." ∨ name = codes ".." ∨ 160 < name.length ∨ 47 ∈ name ∨
      92 ∈ name ∨ 0 ∈ name ∨ pathName name ≠ name then
    .error (.valueError (codes "attachment name must be a plain file name"))
  else .ok name

structure Batch where
  decoded : List (PyText × Content) := []
  names : List PyText := []
  total : Nat := 0

def maxFiles : Nat := 8

def maxFileBytes : Nat := 4 * 1024 * 1024

def maxTotalBytes : Nat := 12 * 1024 * 1024

/-- One pass of the loop over `raw_files`. -/
def addItem (tools : Tools) (batch : Batch) : Item → Except Error Batch
  | .other => .error (.valueError (codes "each attachment must be an object"))
  | .object name encoded => do
    let name ← safeName name
    let folded := tools.casefold name
    if folded ∈ batch.names then
      .error (.valueError (codes "attachment names must be unique"))
    else
      match encoded with
      | some (.text encoded) =>
        match tools.b64decode encoded with
        | none =>
          .error (.valueError (codes "attachment " ++ name ++ codes " is not valid base64"))
        | some content =>
          let total := batch.total + content.length
          if maxFileBytes < content.length then
            .error (.valueError (codes "attachment " ++ name ++ codes " exceeds the 4 MB limit"))
          else if maxTotalBytes < total then
            .error (.valueError (codes "attachments exceed the 12 MB batch limit"))
          else
            .ok { decoded := batch.decoded ++ [(name, content)],
                  names := folded :: batch.names, total }
      | _ => .error (.valueError (codes "attachment content must be base64 text"))

/-- The checks before anything is written; `files` is `none` if it is not a list. -/
def decodeBatch (tools : Tools) (files : Option (List Item)) : Except Error Batch :=
  let items := files.getD []
  if items = [] then .error (.valueError (codes "choose at least one file"))
  else if maxFiles < items.length then
    .error (.valueError (codes "choose at most 8 files"))
  else items.foldlM (addItem tools) {}

/-! ### Writing -/

/-- The name of a file on disk. -/
abbrev FileName : Type := List UInt8

/-- The files of a directory. -/
abbrev Directory : Type := List (FileName × Content)

/-- The directories under the upload root. -/
abbrev Disk : Type := PyText → Option Directory

/-- What fails: the new directory, and the writing of a file, which may leave a part of it. -/
structure System where
  mkdirFails : Bool := false
  writeFails : Nat → Option (Option Content) := fun _ => none

/-- The UTF-8 of a code point; a surrogate stands for a single byte, or cannot be encoded. -/
def encodeCode (code : Nat) : Option FileName :=
  let trail (shift : Nat) := 128 + code / shift % 64
  if code < 0x80 then some [.ofNat code]
  else if code < 0x800 then some [.ofNat (192 + code / 64), .ofNat (trail 1)]
  else if 0xDC80 ≤ code ∧ code ≤ 0xDCFF then some [.ofNat (code - 0xDC00)]
  else if 0xD800 ≤ code ∧ code ≤ 0xDFFF then none
  else if code < 0x10000 then some [.ofNat (224 + code / 4096), .ofNat (trail 64), .ofNat (trail 1)]
  else some [.ofNat (240 + code / 262144), .ofNat (trail 4096), .ofNat (trail 64), .ofNat (trail 1)]

/-- `os.fsencode(name)`. -/
def fsencode (name : PyText) : Option FileName :=
  (name.mapM encodeCode).map List.flatten

def put (files : Directory) (name : FileName) (content : Content) : Directory :=
  files.filter (·.1 ≠ name) ++ [(name, content)]

/-- `path.write_bytes(content)`, with what a failure leaves. -/
def writeBytes (failure : Option (Option Content)) (files : Directory) (name : PyText)
    (content : Content) : Except (Error × Directory) Directory :=
  match fsencode name, failure with
  | none, _ => .error (.unicodeEncodeError, files)
  | some name, none => .ok (put files name content)
  | some _, some none => .error (.osError, files)
  | some name, some (some part) => .error (.osError, put files name part)

def writeAll (system : System) :
    Nat → Directory → List (PyText × Content) → Except (Error × Directory) Directory
  | _, files, [] => .ok files
  | index, files, (name, content) :: later => do
    let files ← writeBytes (system.writeFails index) files name content
    writeAll system (index + 1) files later

structure StoredFile where
  name : PyText
  path : PyText
  size : Nat

structure Receipt where
  uploadId : PyText
  files : List StoredFile
  totalBytes : Nat
  privacy : String := "stored only in the local Weave data directory"

/-- `store_local_uploads`, with the resolved root and the id that is drawn. -/
def storeLocalUploads (tools : Tools) (system : System) (root uploadId : PyText) (disk : Disk)
    (payload : Option (List Item)) : Except Error Receipt × Disk :=
  match decodeBatch tools payload with
  | .error error => (.error error, disk)
  | .ok batch =>
    if system.mkdirFails ∨ (disk uploadId).isSome then (.error .osError, disk)
    else
      match writeAll system 0 [] batch.decoded with
      | .ok files =>
        let stored file :=
          { name := file.1, path := root ++ codes "/" ++ uploadId ++ codes "/" ++ file.1,
            size := file.2.length }
        (.ok { uploadId, files := batch.decoded.map stored, totalBytes := batch.total },
          Function.update disk uploadId (some files))
      | .error (error, left) =>
        let made := Function.update disk uploadId (some left)
        (.error error, if error = .osError then Function.update made uploadId none else made)

end WeaveCodex.ControlPlane.Uploads
