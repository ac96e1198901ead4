/-
Purpose: Snapshots of the world state, the merge patch from one to the next, how a patch is
  applied, and the records by which a session writes them to its rollout.
Trusted boundary: translation of `core/src/context/world_state/mod.rs` and of
  `update_world_state` in `core/src/context_manager/history.rs`; a map of `serde_json` is a
  sorted one, so that values are those up to `==`, which does not see the order of a map
-/
import WeaveCodex.Library.SortedMap
import WeaveCodex.Rollout.Reconstruction

namespace WeaveCodex.Context

open Library

/-! ### Values -/

/-- `serde_json::Value`, over the numbers. -/
inductive Value (Number : Type) where
  | null
  | bool (value : Bool)
  | number (value : Number)
  | string (value : String)
  | array (items : List (Value Number))
  | object (fields : List (String × Value Number))

variable {Number : Type}

/-- `serde_json::Map<String, Value>`. -/
abbrev Fields (Number : Type) : Type :=
  List (String × Value Number)

namespace Value

def isNull : Value Number → Bool
  | .null => true
  | _ => false

def asObject : Value Number → Option (Fields Number)
  | .object fields => some fields
  | _ => none

section Equality

variable [DecidableEq Number]

mutual

/-- `==`. -/
def beq : Value Number → Value Number → Bool
  | .null, .null => true
  | .bool first, .bool second | .number first, .number second
  | .string first, .string second => first = second
  | .array first, .array second => beqItems first second
  | .object first, .object second => beqFields first second
  | _, _ => false

def beqItems : List (Value Number) → List (Value Number) → Bool
  | [], [] => true
  | first :: firsts, second :: seconds => beq first second && beqItems firsts seconds
  | _, _ => false

def beqFields : List (String × Value Number) → List (String × Value Number) → Bool
  | [], [] => true
  | (firstKey, first) :: firsts, (secondKey, second) :: seconds =>
    firstKey = secondKey && beq first second && beqFields firsts seconds
  | _, _ => false

end

mutual

theorem beq_iff_eq (first second : Value Number) : beq first second = true ↔ first = second := by
  match first with
  | .null | .bool value | .number value | .string value => cases second <;> simp [beq]
  | .array items =>
    cases second with
    | array others => simp [beq, beqItems_iff_eq items others]
    | _ => simp [beq]
  | .object fields =>
    cases second with
    | object others => simp [beq, beqFields_iff_eq fields others]
    | _ => simp [beq]

theorem beqItems_iff_eq (first second : List (Value Number)) :
    beqItems first second = true ↔ first = second := by
  match first with
  | [] => cases second <;> simp [beqItems]
  | value :: values =>
    cases second with
    | nil => simp [beqItems]
    | cons other others =>
      simp [beqItems, beq_iff_eq value other, beqItems_iff_eq values others]

theorem beqFields_iff_eq (first second : List (String × Value Number)) :
    beqFields first second = true ↔ first = second := by
  match first with
  | [] => cases second <;> simp [beqFields]
  | (key, value) :: fields =>
    cases second with
    | nil => simp [beqFields]
    | cons other others =>
      obtain ⟨_, otherValue⟩ := other
      simp [beqFields, beq_iff_eq value otherValue, beqFields_iff_eq fields others]

end

instance : DecidableEq (Value Number) := fun first second =>
  decidable_of_iff (beq first second = true) (beq_iff_eq first second)

end Equality

mutual

/-- The keys of every map increase, as those of a `BTreeMap` do. -/
def WellFormed : Value Number → Prop
  | .null | .bool _ | .number _ | .string _ => True
  | .array items => ItemsWellFormed items
  | .object fields => SortedMap.Sorted fields ∧ FieldsWellFormed fields

def ItemsWellFormed : List (Value Number) → Prop
  | [] => True
  | item :: items => WellFormed item ∧ ItemsWellFormed items

def FieldsWellFormed : List (String × Value Number) → Prop
  | [] => True
  | (_, value) :: fields => WellFormed value ∧ FieldsWellFormed fields

end

end Value

/-! ### Merge patches -/

mutual

/-- Null fields are left out of objects, but not of what stands in an array. -/
def removeNullObjectFields : Value Number → Value Number
  | .object fields => .object (removeNullFields fields)
  | value => value

def removeNullFields : List (String × Value Number) → List (String × Value Number)
  | [] => []
  | (key, value) :: fields =>
    if value.isNull then removeNullFields fields
    else (key, removeNullObjectFields value) :: removeNullFields fields

end

/-- The loop that removes what is no longer there. -/
def removals (previous current : Fields Number) : Fields Number :=
  previous.foldl (fun patch field =>
    if (SortedMap.get current field.1).isNone then SortedMap.insert field.1 .null patch
    else patch) []

section Create

variable [DecidableEq Number]

mutual

def createMergePatch (previous : Value Number) : Value Number → Option (Value Number)
  | .object current =>
    if previous = .object current then none
    else
      let previousFields := previous.asObject.getD []
      some (.object (addChanges previousFields (removals previousFields current) current))
  | current => if previous = current then none else some current

/-- The loop over the current fields. -/
def addChanges (previous patch : List (String × Value Number)) :
    List (String × Value Number) → List (String × Value Number)
  | [] => patch
  | (key, currentValue) :: current =>
    match SortedMap.get previous key with
    | none => addChanges previous (SortedMap.insert key currentValue patch) current
    | some previousValue =>
      match createMergePatch previousValue currentValue with
      | some valuePatch => addChanges previous (SortedMap.insert key valuePatch patch) current
      | none => addChanges previous patch current

end

/-- The two loops, which snapshots and objects share. -/
def patchFields (previous current : Fields Number) : Fields Number :=
  addChanges previous (removals previous current) current

end Create

mutual

def applyMergePatchValue (target : Value Number) : Value Number → Value Number
  | .object patch => .object (applyFields (target.asObject.getD []) patch)
  | patch => patch

/-- The loop over the patch, which snapshots and objects share. -/
def applyFields (target : List (String × Value Number)) :
    List (String × Value Number) → List (String × Value Number)
  | [] => target
  | (key, value) :: patch =>
    if value.isNull then applyFields (SortedMap.erase key target) patch
    else
      match SortedMap.get target key with
      | some current =>
        applyFields (SortedMap.insert key (applyMergePatchValue current value) target) patch
      | none =>
        applyFields (SortedMap.insert key (applyMergePatchValue .null value) target) patch

end

/-! ### Snapshots -/

structure WorldStateSnapshot (Number : Type) where
  sections : Fields Number

instance [DecidableEq Number] : DecidableEq (WorldStateSnapshot Number) := fun first second =>
  decidable_of_iff (first.sections = second.sections) (by cases first; cases second; simp)

namespace WorldStateSnapshot

/-- `into_object`. -/
def intoObject (snapshot : WorldStateSnapshot Number) : Value Number :=
  .object snapshot.sections

def mergePatchFrom [DecidableEq Number] (snapshot previous : WorldStateSnapshot Number) :
    Option (Fields Number) :=
  let patch := patchFields previous.sections snapshot.sections
  if patch.isEmpty then none else some patch

def applyMergePatch (snapshot : WorldStateSnapshot Number) (patch : Fields Number) :
    WorldStateSnapshot Number :=
  { sections := applyFields snapshot.sections patch }

end WorldStateSnapshot

/-- A section of the live world state: its id, and what its snapshot serialises to, if the
section is persisted and can be serialised. -/
structure Section (Number : Type) where
  id : String
  serialized : Option (Value Number)
  wellFormed : ∀ value, serialized = some value → value.WellFormed

/-- `ErasedWorldStateSection::snapshot`. -/
def Section.snapshot («section» : Section Number) : Option (Value Number) :=
  match «section».serialized with
  | none => none
  | some serialized =>
    let snapshot := removeNullObjectFields serialized
    if snapshot.isNull then none else some snapshot

structure WorldState (Number : Type) where
  sections : List (Section Number)

/-- The snapshots are collected into a sorted map. -/
def WorldState.snapshot (worldState : WorldState Number) : WorldStateSnapshot Number :=
  { sections := worldState.sections.foldl (fun sections «section» =>
      match «section».snapshot with
      | some snapshot => SortedMap.insert «section».id snapshot sections
      | none => sections) [] }

/-! ### Records -/

open Rollout (RolloutItem WorldStateItem HistoryTools)

section Records

variable [DecidableEq Number]

/-- The record of `update_world_state`: a full one if nothing is known of the state before,
a patch if something changed. -/
def updateWorldState (baseline : Option (WorldStateSnapshot Number))
    (snapshot : WorldStateSnapshot Number) : Option (WorldStateItem (Value Number)) :=
  match baseline with
  | none => some { full := true, state := snapshot.intoObject }
  | some previous =>
    (snapshot.mergePatchFrom previous).map fun patch => { full := false, state := .object patch }

/-- What a session writes for one world state after the other. -/
def persistedItems (baseline : Option (WorldStateSnapshot Number)) :
    List (WorldState Number) → List (RolloutItem (Value Number))
  | [] => []
  | worldState :: worldStates =>
    (updateWorldState baseline worldState.snapshot).toList.map .worldState ++
      persistedItems (some worldState.snapshot) worldStates

end Records

/-- The replay reads a state as the map of its sections. -/
def mergeStates (baseline patch : Value Number) : Value Number :=
  let snapshot : WorldStateSnapshot Number := { sections := baseline.asObject.getD [] }
  (snapshot.applyMergePatch (patch.asObject.getD [])).intoObject

/-- The tools of the reconstruction, with the merge of world states. -/
def withMergePatch (tools : HistoryTools (Value Number)) : HistoryTools (Value Number) :=
  { tools with applyMergePatch := mergeStates }

end WeaveCodex.Context
