/-
Purpose: When an upload stores its whole batch or nothing: the checks accept names that the file
  system cannot encode, and names that it encodes alike.
-/
import Mathlib.Data.List.Nodup
import WeaveCodex.ControlPlane.Uploads
import WeaveCodex.Library.Fallible

namespace WeaveCodex.ControlPlane.Uploads

open List Function Except

variable {tools : Tools}

/-- The name leads to a direct child of its directory. -/
def Plain (name : PyText) : Prop :=
  name ≠ [] ∧ name ≠ codes "." ∧ name ≠ codes ".." ∧ 47 ∉ name

/-- The files are those of the items, with plain names that differ under case folding. -/
structure Stored (tools : Tools) (items : List Item) (files : List (PyText × Content)) : Prop where
  decoded : List.Forall₂ (fun item file => ∃ name encoded,
    item = .object name (some (.text encoded)) ∧ safeName name = .ok file.1 ∧
      tools.b64decode encoded = some file.2) items files
  plain : ∀ file ∈ files, Plain file.1
  distinct : (files.map fun file => tools.casefold file.1).Nodup

/-- A file under its name on disk. -/
def onDisk (file : PyText × Content) : Option (FileName × Content) :=
  (fsencode file.1).map (·, file.2)

/-- A fresh directory has one file for each of the batch, with its content, or the disk is as
before. -/
def Atomic (tools : Tools) (payload : Option (List Item)) (uploadId : PyText) (disk : Disk)
    (outcome : Except Error Receipt × Disk) : Prop :=
  match outcome.1 with
  | .ok _ => disk uploadId = none ∧ ∃ items files directory, payload = some items ∧
      Stored tools items files ∧ directory.map some = files.map onDisk ∧
      outcome.2 = update disk uploadId (some directory)
  | .error _ => outcome.2 = disk

/-! ### Checks -/

theorem plain_of_safeName {value : Option Value} {name : PyText}
    (safe : safeName value = .ok name) : Plain name := by
  unfold safeName at safe
  dsimp only at safe
  split at safe
  · cases safe
  · rename_i accepted
    cases safe
    simp only [not_or] at accepted
    exact ⟨accepted.1, accepted.2.1, accepted.2.2.1, accepted.2.2.2.2.1⟩

/-- What the loop knows of the items it has seen. -/
structure Checked (tools : Tools) (items : List Item) (batch : Batch) : Prop where
  stored : Stored tools items batch.decoded
  names : ∀ folded, folded ∈ batch.names ↔ folded ∈ batch.decoded.map fun file => tools.casefold file.1

variable {item : Item} {batch batch' : Batch} {items : List Item}

/-- Every way in which an item is accepted. -/
theorem addItem_eq_ok (added : addItem tools batch item = .ok batch') :
    ∃ value encoded name content, item = .object value (some (.text encoded)) ∧
      safeName value = .ok name ∧ tools.casefold name ∉ batch.names ∧
      tools.b64decode encoded = some content ∧
      batch'.decoded = batch.decoded ++ [(name, content)] ∧
      batch'.names = tools.casefold name :: batch.names := by
  cases item with
  | other => cases added
  | object value encoded =>
    rw [addItem, bind_eq_ok_iff] at added
    obtain ⟨name, safe, added⟩ := added
    dsimp only at added
    split at added
    · cases added
    rename_i fresh
    split at added
    · rename_i encoded
      split at added
      · cases added
      rename_i content is
      split at added
      · cases added
      split at added
      · cases added
      cases added
      exact ⟨value, encoded, name, content, rfl, safe, fresh, is, rfl, rfl⟩
    · cases added

theorem Checked.addItem (checked : Checked tools items batch)
    (added : addItem tools batch item = .ok batch') :
    Checked tools (items ++ [item]) batch' := by
  obtain ⟨value, encoded, _, _, rfl, safe, fresh, is, decoded, names⟩ :=
    addItem_eq_ok added
  obtain ⟨stored, plain, distinct⟩ := checked.stored
  rw [checked.names] at fresh
  constructor
  · rw [decoded]
    refine ⟨rel_append stored (.cons ⟨value, encoded, rfl, safe, is⟩ .nil), ?_, ?_⟩
    · rw [forall_mem_append]
      exact ⟨plain, by simpa using plain_of_safeName safe⟩
    · rw [map_append, nodup_append_comm]
      exact nodup_cons.mpr ⟨fresh, distinct⟩
  · intro folded
    simp [names, decoded, checked.names, or_comm]

theorem Checked.foldlM (later : List Item) {final : Batch} (checked : Checked tools items batch)
    (folded : later.foldlM (Uploads.addItem tools) batch = .ok final) :
    Checked tools (items ++ later) final := by
  induction later generalizing items batch with
  | nil =>
    cases folded
    rwa [append_nil]
  | cons _ _ ih =>
    rw [foldlM_cons] at folded
    obtain ⟨_, added, folded⟩ := bind_eq_ok_iff.mp folded
    rw [← singleton_append, ← append_assoc]
    exact ih (checked.addItem added) folded

theorem stored_of_decodeBatch {payload : Option (List Item)}
    (accepted : decodeBatch tools payload = .ok batch) :
    ∃ items, payload = some items ∧ Stored tools items batch.decoded := by
  unfold decodeBatch at accepted
  dsimp only at accepted
  split at accepted
  · cases accepted
  rename_i some
  split at accepted
  · cases accepted
  have empty : Checked tools [] {} := ⟨⟨.nil, by simp, .nil⟩, by simp⟩
  cases payload with
  | none => contradiction
  | some items => exact ⟨items, rfl, (empty.foldlM items accepted).stored⟩

/-! ### Writing -/

/-- The operating system refuses one of the files from this number on, and the names up to it
can be encoded. -/
def Refused (system : System) : Nat → List (PyText × Content) → Prop
  | _, [] => False
  | index, file :: later =>
    fsencode file.1 ≠ none ∧ ((system.writeFails index).isSome ∨ Refused system (index + 1) later)

/-- One file after the other is written. -/
def putAll (files written : Directory) : Directory :=
  written.foldl (fun files file => put files file.1 file.2) files

/-- A file is refused by the operating system, or a name cannot be encoded, or all files are
written. -/
theorem writeAll_cases (system : System) (later : List (PyText × Content)) (index : Nat)
    (files : Directory) :
    (Refused system index later ∧ ∃ left, writeAll system index files later = .error (.osError, left)) ∨
    ¬ Refused system index later ∧
      ((none ∈ later.map onDisk ∧
          ∃ left, writeAll system index files later = .error (.unicodeEncodeError, left)) ∨
        ∃ written : Directory, written.map some = later.map onDisk ∧
          writeAll system index files later = .ok (putAll files written)) := by
  induction later generalizing index files with
  | nil => exact .inr ⟨id, .inr ⟨[], rfl, rfl⟩⟩
  | cons file _ ih =>
    obtain ⟨name, content⟩ := file
    rw [writeAll, Refused]
    unfold writeBytes
    cases encoded : fsencode name with
    | none => exact .inr ⟨by simp, .inl ⟨by simp [onDisk, encoded], files, rfl⟩⟩
    | some bytes =>
      cases failure : system.writeFails index with
      | some left => cases left <;> exact .inl ⟨by simp, _, rfl⟩
      | none =>
        have here : onDisk (name, content) = some (bytes, content) := by simp [onDisk, encoded]
        rw [map_cons, here]
        rcases ih (index + 1) (put files bytes content) with
          ⟨refused, failed⟩ | ⟨free, ⟨unencoded, failed⟩ | ⟨written, all, done⟩⟩
        · exact .inl ⟨by simp [refused], failed⟩
        · exact .inr ⟨by simp [free], .inl ⟨mem_cons_of_mem _ unencoded, failed⟩⟩
        · exact .inr ⟨by simp [free], .inr ⟨(bytes, content) :: written, by simp [all], done⟩⟩

/-- No two files of a directory have one name. -/
theorem nodup_putAll {files : Directory} (distinct : (files.map Prod.fst).Nodup)
    (written : Directory) : ((putAll files written).map Prod.fst).Nodup := by
  induction written generalizing files with
  | nil => exact distinct
  | cons file _ ih =>
    refine ih (?_ : ((put files file.1 file.2).map Prod.fst).Nodup)
    rw [put, map_append, nodup_append_comm]
    refine nodup_cons.mpr ⟨?_, distinct.sublist (filter_sublist.map _)⟩
    simp

/-- New names come behind the others. -/
theorem putAll_eq_append {files written : Directory}
    (distinct : ((files ++ written).map Prod.fst).Nodup) : putAll files written = files ++ written := by
  induction written generalizing files with
  | nil => exact (append_nil files).symm
  | cons file _ ih =>
    have appended : put files file.1 file.2 = files ++ [file] := by
      rw [put, filter_eq_self.mpr]
      intro other mem
      rw [map_append, nodup_append] at distinct
      exact decide_eq_true (distinct.2.2 other.1 (mem_map_of_mem mem) file.1 (by simp))
    change putAll (put files file.1 file.2) _ = _
    rw [appended, ih (by rwa [append_assoc]), append_assoc]
    rfl

/-- The files are all there exactly if no two of them have one name on disk. -/
theorem putAll_eq_iff (written : Directory) :
    putAll [] written = written ↔ (written.map Prod.fst).Nodup := by
  constructor
  · intro same
    rw [← same]
    exact @nodup_putAll [] .nil written
  · exact @putAll_eq_append [] written

/-- The items tell which files are stored. -/
theorem Stored.unique {files others : List (PyText × Content)} (stored : Stored tools items files)
    (also : Stored tools items others) : files = others := by
  refine Relator.RightUnique.forall₂ ?_ stored.decoded also.decoded
  rintro _ ⟨_, _⟩ ⟨_, _⟩ ⟨_, _, rfl, safe, decoded⟩ ⟨_, _, same, safe', decoded'⟩
  cases same
  cases safe.symm.trans safe'
  cases decoded.symm.trans decoded'
  rfl

/-- An upload stores all or nothing exactly if, once it has made its directory, the operating system
refuses a file before a name comes that cannot be encoded, or all names can be encoded and no two
of them alike. -/
theorem storeLocalUploads_atomic_iff (tools : Tools) (system : System) (root uploadId : PyText)
    (disk : Disk) (payload : Option (List Item)) :
    Atomic tools payload uploadId disk (storeLocalUploads tools system root uploadId disk payload) ↔
      ∀ batch, decodeBatch tools payload = .ok batch → system.mkdirFails = false →
        disk uploadId = none → Refused system 0 batch.decoded ∨
          ∃ directory : Directory, directory.map some = batch.decoded.map onDisk ∧
            (directory.map Prod.fst).Nodup := by
  unfold storeLocalUploads
  cases decoded : decodeBatch tools payload with
  | error => exact iff_of_true rfl nofun
  | ok batch =>
    simp only [Except.ok.injEq, forall_eq']
    split
    · rename_i failing
      refine iff_of_true rfl fun made fresh => ?_
      simp [made, fresh] at failing
    · rename_i going
      simp only [not_or, Bool.not_eq_true, Option.isSome_eq_false_iff, Option.isNone_iff_eq_none] at going
      obtain ⟨made, fresh⟩ := going
      simp only [made, fresh, true_implies]
      rcases writeAll_cases system batch.decoded 0 [] with
        ⟨refused, left, failed⟩ | ⟨free, ⟨unencoded, left, failed⟩ | ⟨written, all, done⟩⟩
      · rw [failed]
        refine iff_of_true ?_ (.inl refused)
        change update (update disk uploadId (some left)) uploadId none = disk
        rw [update_idem, ← fresh, update_eq_self]
      · rw [failed]
        apply iff_of_false
        · intro atomic
          have still := congrFun atomic uploadId
          simp [fresh] at still
        · rintro (refused | ⟨directory, all, -⟩)
          · exact free refused
          · simp [← all] at unencoded
      · rw [done]
        obtain ⟨items, given, stored⟩ := stored_of_decodeBatch decoded
        constructor
        · rintro ⟨-, _, files, directory, given', also, all', left⟩
          cases given.symm.trans given'
          cases stored.unique also
          cases map_injective_iff.mpr (fun _ _ => Option.some.inj) (all.trans all'.symm)
          have same := congrFun left uploadId
          simp only [update_self, Option.some.injEq] at same
          exact .inr ⟨written, all, (putAll_eq_iff written).mp same⟩
        · rintro (refused | ⟨directory, all', distinct⟩)
          · exact absurd refused free
          · cases map_injective_iff.mpr (fun _ _ => Option.some.inj) (all.trans all'.symm)
            rw [(putAll_eq_iff written).mpr distinct]
            exact ⟨fresh, items, batch.decoded, written, given, stored, all, rfl⟩

/-- A decoder that takes the text for the bytes. -/
def rawTexts : Tools := { casefold := id, b64decode := fun text => some (text.map UInt8.ofNat) }

/-- Attachments with these names and texts. -/
def attached (files : List (PyText × PyText)) : Option (List Item) :=
  some (files.map fun file => .object (some (.text file.1)) (some (.text file.2)))

/-- An upload to an empty disk. -/
abbrev uploaded (payload : Option (List Item)) : Except Error Receipt × Disk :=
  storeLocalUploads rawTexts {} [] (codes "u") (fun _ => none) payload

/-- Two files, one of them with an accent in its name, which takes two bytes on disk. -/
def accentedName : Option (List Item) := attached [([0xE9], codes "hi"), (codes "b", codes "x")]

/-- Both files are stored with their bytes, the first one under its encoded name. -/
theorem accentedName_stored :
    Atomic rawTexts accentedName (codes "u") (fun _ => none) (uploaded accentedName) ∧
    (uploaded accentedName).2 (codes "u") = some [([0xC3, 0xA9], [104, 105]), ([98], [120])] := by
  refine ⟨(storeLocalUploads_atomic_iff _ _ _ _ _ _).mpr ?_, by decide⟩
  intro batch decoded _ _
  cases decoded
  exact .inr ⟨[([0xC3, 0xA9], [104, 105]), ([98], [120])], by decide, by decide⟩

/-- The second name is a lone surrogate. -/
def loneSurrogate : Option (List Item) := attached [(codes "a", []), ([0xD800], [])]

/-- The upload raises, and the first file and the directory stay. -/
theorem loneSurrogate_leaves_batch :
    ¬ Atomic rawTexts loneSurrogate (codes "u") (fun _ => none) (uploaded loneSurrogate) := by
  intro atomic
  cases congrFun atomic (codes "u")

/-- Two escaped bytes and the letter that they encode have one name on disk: the upload returns, and
the first file is overwritten. -/
theorem escapedName_overwrites :
    (uploaded (attached [([0xE9], codes "hi"), ([0xDCC3, 0xDCA9], codes "x")])).1.isOk = true ∧
    (uploaded (attached [([0xE9], codes "hi"), ([0xDCC3, 0xDCA9], codes "x")])).2 (codes "u") =
      some [([0xC3, 0xA9], [120])] := by
  decide

end WeaveCodex.ControlPlane.Uploads
