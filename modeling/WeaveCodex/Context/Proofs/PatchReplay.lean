/-
Purpose: A merge patch leads from the one snapshot to the other, an empty patch says that
  they are equal, and so the records of a session rebuild its last world state.
-/
import WeaveCodex.Context.MergePatch

namespace WeaveCodex.Context

open Library
open Library.SortedMap (Sorted)
open Rollout (RolloutItem WorldStateItem HistoryTools replayWorldState)
open SortedMap WorldStateSnapshot
open Option hiding get
open List hiding sections get

variable {Number : Type}

/-! ### Values that a patch can express -/

mutual

/-- No object has a null field, and the keys of every object increase. What stands in an
array does not matter, since arrays are replaced as a whole. -/
def Mergeable : Value Number → Prop
  | .object fields => Sorted fields ∧ FieldsMergeable fields
  | _ => True

def FieldsMergeable : List (String × Value Number) → Prop
  | [] => True
  | (_, value) :: fields => (value.isNull = false ∧ Mergeable value) ∧ FieldsMergeable fields

end

variable {fields : Fields Number}

theorem fieldsMergeable_iff :
    FieldsMergeable fields ↔ ∀ field ∈ fields, field.2.isNull = false ∧ Mergeable field.2 := by
  induction fields with
  | nil => simp [FieldsMergeable]
  | cons _ _ ih =>
    simp only [FieldsMergeable, ih, forall_mem_cons]

theorem mergeable_object : Mergeable (.object fields) ↔
    Sorted fields ∧ ∀ field ∈ fields, field.2.isNull = false ∧ Mergeable field.2 := by
  rw [Mergeable, fieldsMergeable_iff]

variable {value : Value Number}

/-- What is found in a mergeable object is not null and mergeable. -/
theorem mergeable_of_get {key : String} (mergeable : Mergeable (.object fields))
    (found : get fields key = some value) :
    value.isNull = false ∧ Mergeable value :=
  (mergeable_object.mp mergeable).2 (key, value) (mem_of_get found)

/-- The fields of a value, of which there are none if it is not an object. -/
theorem sorted_asObject (mergeable : Mergeable value) : Sorted (value.asObject.getD []) := by
  cases value with
  | object => exact (mergeable_object.mp mergeable).1
  | _ => exact .nil

mutual

variable {motive : Value Number → Prop}

/-- Induction over the fields of objects. -/
theorem object_induction (leaf : ∀ value, value.asObject = none → motive value)
    (object : ∀ fields : Fields Number, (∀ field ∈ fields, motive field.2) → motive (.object fields)) :
    ∀ value, motive value
  | .null | .bool _ | .number _ | .string _ | .array _ => leaf _ rfl
  | .object fields => object fields (fields_induction leaf object fields)

theorem fields_induction (leaf : ∀ value, value.asObject = none → motive value)
    (object : ∀ fields : Fields Number, (∀ field ∈ fields, motive field.2) → motive (.object fields)) :
    ∀ fields : List (String × Value Number), ∀ field ∈ fields, motive field.2
  | [], _, mem => absurd mem not_mem_nil
  | (key, value) :: fields, field, mem => by
    rcases mem_cons.mp mem with here | later
    · rw [here]
      exact object_induction leaf object value
    · exact fields_induction leaf object fields field later

end

/-! ### Applying a patch -/

variable {target patch : Fields Number}

theorem sorted_applyFields (sorted : Sorted target) : Sorted (applyFields target patch) := by
  induction patch generalizing target with
  | nil =>
    rw [applyFields]
    exact sorted
  | cons field _ ih =>
    obtain ⟨key, _⟩ := field
    rw [applyFields]
    split
    · exact ih (sorted_erase sorted key)
    · split <;> exact ih (sorted_insert sorted key _)

/-- One field of a patch. -/
def applyField (target : Option (Value Number)) (value : Value Number) : Option (Value Number) :=
  if value.isNull then none else some (applyMergePatchValue (target.getD .null) value)

/-- One turn of the loop over the patch. -/
theorem applyFields_cons (target patch : Fields Number) (key : String) (value : Value Number) :
    ∃ next, applyFields target ((key, value) :: patch) = applyFields next patch ∧
      ∀ other, get next other =
        if key = other then applyField (get target key) value
        else get target other := by
  rw [applyFields]
  split
  · rename_i isNull
    refine ⟨_, rfl, fun other => ?_⟩
    rw [get_erase, applyField, if_pos isNull]
  · rename_i notNull
    split
    · rename_i found
      refine ⟨_, rfl, fun other => ?_⟩
      rw [get_insert, applyField, if_neg notNull, found, getD_some]
    · rename_i missing
      refine ⟨_, rfl, fun other => ?_⟩
      rw [get_insert, applyField, if_neg notNull, missing, getD_none]

/-- A patch with increasing keys acts on every key by itself. -/
theorem get_applyFields (sorted : Sorted patch) (key : String) :
    get (applyFields target patch) key =
      match get patch key with
      | none => get target key
      | some value => applyField (get target key) value := by
  induction patch generalizing target with
  | nil => simp [applyFields]
  | cons field patch ih =>
    obtain ⟨first, value⟩ := field
    obtain ⟨_, step, changed⟩ := applyFields_cons target patch first value
    rw [step, ih sorted.of_cons, changed key]
    by_cases here : first = key
    · rw [← here, sorted.get_tail, get_cons_self, if_pos rfl]
    · rw [SortedMap.get_cons_of_ne here, if_neg here]

/-- A value without null fields is written as it is where there was no object. -/
theorem applyMergePatchValue_of_leaf (value : Value Number) :
    ∀ target : Value Number, target.asObject = none → Mergeable value →
      applyMergePatchValue target value = value := by
  induction value using object_induction with
  | leaf value notObject =>
    intro target _ _
    cases value with
    | object => cases notObject
    | _ => rfl
  | object fields ih =>
    intro target leaf mergeable
    have sorted := (mergeable_object.mp mergeable).1
    rw [applyMergePatchValue, leaf, getD_none, Value.object.injEq]
    apply (sorted_applyFields .nil).ext sorted
    intro key
    rw [get_applyFields sorted]
    cases found : get fields key with
    | none => rfl
    | some field =>
      have inside := mergeable_of_get mergeable found
      have written := ih (key, field) (mem_of_get found) .null rfl inside.2
      simp [applyField, inside.1, written]

/-! ### Making a patch -/

theorem sorted_removals (previous current : Fields Number) : Sorted (removals previous current) := by
  refine List.foldlRecOn previous _ .nil fun patch sorted field _ => ?_
  split
  · exact sorted_insert sorted _ _
  · exact sorted

/-- What is removed is set to null. -/
theorem get_removals (previous current : Fields Number) (key : String) :
    get (removals previous current) key =
      if (get previous key).isSome ∧ get current key = none then some .null
      else none := by
  rw [removals]
  have general : ∀ patch : Fields Number, get (previous.foldl (fun patch field =>
        if (get current field.1).isNone then insert field.1 .null patch
        else patch) patch) key =
      if (get previous key).isSome ∧ get current key = none then some .null
      else get patch key := by
    induction previous with
    | nil => simp
    | cons field _ ih =>
      intro patch
      rw [foldl_cons, ih]
      by_cases here : field.1 = key
      · cases missing : get current key with
        | none => simp [here, missing, SortedMap.get]
        | some => simp [here, missing]
      · rw [SortedMap.get_cons_of_ne here]
        split
        · rfl
        · split
          · exact get_insert_of_ne here _ _
          · rfl
  simpa using general []

section Create

variable [DecidableEq Number]

theorem createMergePatch_eq_none {previous current : Value Number} :
    createMergePatch previous current = none ↔ previous = current := by
  cases current with
  | object =>
    rw [createMergePatch]
    split <;> simp_all
  | _ =>
    rw [createMergePatch]
    · split <;> simp_all
    · exact nofun

/-- A patch is null only if the value is. -/
theorem isNull_createMergePatch {previous current patch : Value Number}
    (notNull : current.isNull = false) (created : createMergePatch previous current = some patch) :
    patch.isNull = false := by
  cases current with
  | object =>
    rw [createMergePatch] at created
    split at created
    · cases created
    · cases created
      rfl
  | _ =>
    rw [createMergePatch] at created
    · split at created
      · cases created
      · cases created
        exact notNull
    · exact nofun

variable {previous current : Fields Number}

theorem sorted_addChanges (sorted : Sorted patch) : Sorted (addChanges previous patch current) := by
  induction current generalizing patch with
  | nil =>
    rw [addChanges]
    exact sorted
  | cons field _ ih =>
    obtain ⟨key, _⟩ := field
    rw [addChanges]
    split
    · exact ih (sorted_insert sorted key _)
    · split
      · exact ih (sorted_insert sorted key _)
      · exact ih sorted

/-- What a patch says of a key with a current value. -/
def changeOf (previous : Option (Value Number)) (current : Value Number) : Option (Value Number) :=
  match previous with
  | none => some current
  | some previous => createMergePatch previous current

/-- One turn of the loop over the current fields. -/
theorem addChanges_cons (previous patch current : Fields Number) (key : String) (value : Value Number) :
    ∃ next, addChanges previous patch ((key, value) :: current) = addChanges previous next current ∧
      ∀ other, get next other =
        if key = other then (changeOf (get previous key) value).or (get patch key)
        else get patch other := by
  rw [addChanges]
  split
  · rename_i missing
    refine ⟨_, rfl, fun other => ?_⟩
    rw [get_insert, missing, changeOf, some_or]
  · rename_i found
    split
    · rename_i created
      refine ⟨_, rfl, fun other => ?_⟩
      rw [get_insert, found, changeOf, created, some_or]
    · rename_i unchanged
      refine ⟨_, rfl, fun other => ?_⟩
      rw [found, changeOf, unchanged, none_or]
      split
      · rename_i same
        rw [same]
      · rfl

theorem get_addChanges (sorted : Sorted current) (key : String) :
    get (addChanges previous patch current) key =
      match get current key with
      | none => get patch key
      | some value => (changeOf (get previous key) value).or (get patch key) := by
  induction current generalizing patch with
  | nil => simp [addChanges]
  | cons field current ih =>
    obtain ⟨first, value⟩ := field
    obtain ⟨_, step, changed⟩ := addChanges_cons previous patch current first value
    rw [step, ih sorted.of_cons, changed key]
    by_cases here : first = key
    · rw [← here, sorted.get_tail, get_cons_self, if_pos rfl]
    · rw [SortedMap.get_cons_of_ne here, if_neg here]

theorem sorted_patchFields (previous current : Fields Number) : Sorted (patchFields previous current) :=
  sorted_addChanges (sorted_removals previous current)

/-- A patch by keys: what is gone is null, what is new is written, what changed is
patched. -/
theorem get_patchFields (sorted : Sorted current) (key : String) :
    get (patchFields previous current) key =
      match get current key with
      | none => if (get previous key).isSome then some .null else none
      | some value => changeOf (get previous key) value := by
  rw [patchFields, get_addChanges sorted, get_removals]
  cases get current key with
  | none | some => simp

/-! ### A patch leads to the current value -/

/-- If the patches of the fields lead to their values, the patch of the object does. -/
theorem applyFields_patchFields (sorted : Sorted previous) (mergeable : Mergeable (.object current))
    (fields : ∀ key old value patch, get previous key = some old →
      get current key = some value → createMergePatch old value = some patch →
      applyMergePatchValue old patch = value) :
    applyFields previous (patchFields previous current) = current := by
  have currentSorted := (mergeable_object.mp mergeable).1
  apply (sorted_applyFields sorted).ext currentSorted
  intro key
  rw [get_applyFields (sorted_patchFields previous current), get_patchFields currentSorted]
  cases found : get current key with
  | none =>
    cases before : get previous key with
    | none | some => rfl
  | some value =>
    obtain ⟨notNull, valueMergeable⟩ := mergeable_of_get mergeable found
    cases before : get previous key with
    | none =>
      have written := applyMergePatchValue_of_leaf value .null rfl valueMergeable
      simp [changeOf, applyField, notNull, written]
    | some old =>
      cases created : createMergePatch old value with
      | none =>
        obtain rfl : old = value := createMergePatch_eq_none.mp created
        have silent : changeOf (some old) old = none := created
        simp only [silent]
      | some patch =>
        have patched := fields key old value patch before found created
        have patchNotNull := isNull_createMergePatch notNull created
        simp [changeOf, created, applyField, patchNotNull, patched]

/-- A created patch turns the previous value into the current one. -/
theorem applyMergePatchValue_createMergePatch (current : Value Number) :
    ∀ previous patch : Value Number, Mergeable previous → Mergeable current →
      createMergePatch previous current = some patch →
      applyMergePatchValue previous patch = current := by
  induction current using object_induction with
  | leaf current notObject =>
    intro previous patch _ _ created
    cases current with
    | object => cases notObject
    | _ =>
      rw [createMergePatch] at created
      · split at created
        · cases created
        · cases created
          rfl
      · exact nofun
  | object _ ih =>
    intro previous patch previousMergeable mergeable created
    rw [createMergePatch] at created
    split at created
    · cases created
    · cases created
      rw [applyMergePatchValue, Value.object.injEq]
      apply applyFields_patchFields (sorted_asObject previousMergeable) mergeable
      intro key old value patch before found created
      have oldMergeable : Mergeable old := by
        cases previous with
        | object => exact (mergeable_of_get previousMergeable before).2
        | _ => cases before
      exact ih (key, value) (mem_of_get found) old patch oldMergeable
        (mergeable_of_get mergeable found).2 created

section

variable (previousMergeable : Mergeable (.object previous)) (mergeable : Mergeable (.object current))
include previousMergeable mergeable

/-- The patch between two maps leads from the one to the other. -/
theorem applyFields_patchFields_of_mergeable :
    applyFields previous (patchFields previous current) = current := by
  apply applyFields_patchFields (mergeable_object.mp previousMergeable).1 mergeable
  intro key old value patch before found created
  exact applyMergePatchValue_createMergePatch value old patch
    (mergeable_of_get previousMergeable before).2 (mergeable_of_get mergeable found).2 created

/-- Only equal maps have an empty patch between them. -/
theorem patchFields_eq_nil : patchFields previous current = [] ↔ current = previous := by
  constructor
  · intro empty
    have reached := applyFields_patchFields_of_mergeable previousMergeable mergeable
    rw [empty, applyFields] at reached
    exact reached.symm
  · rintro rfl
    apply (sorted_patchFields _ _).ext .nil
    intro key
    rw [get_patchFields (mergeable_object.mp mergeable).1]
    cases found : get current key with
    | none => rfl
    | some => exact createMergePatch_eq_none.mpr rfl

end

end Create

/-! ### Snapshots -/

theorem isNull_removeNullObjectFields (value : Value Number) :
    (removeNullObjectFields value).isNull = value.isNull := by
  cases value <;> rfl

variable {field : String × Value Number}

theorem keys_removeNullFields (mem : field ∈ removeNullFields fields) :
    ∃ value, (field.1, value) ∈ fields ∧ value.isNull = false ∧
      field.2 = removeNullObjectFields value := by
  induction fields with
  | nil => cases mem
  | cons first fields ih =>
    obtain ⟨key, value⟩ := first
    rw [removeNullFields] at mem
    have later : field ∈ removeNullFields fields → ∃ value', (field.1, value') ∈
        (key, value) :: fields ∧ value'.isNull = false ∧ field.2 = removeNullObjectFields value' := by
      intro inside
      obtain ⟨found, stands, kept⟩ := ih inside
      exact ⟨found, mem_cons_of_mem _ stands, kept⟩
    split at mem
    · exact later mem
    · rename_i notNull
      rcases mem_cons.mp mem with here | inside
      · rw [here]
        exact ⟨value, mem_cons_self, Bool.eq_false_of_not_eq_true notNull, rfl⟩
      · exact later inside

theorem sorted_removeNullFields (sorted : Sorted fields) : Sorted (removeNullFields fields) := by
  induction fields with
  | nil => exact .nil
  | cons field _ ih =>
    obtain ⟨_, _⟩ := field
    rw [removeNullFields]
    split
    · exact ih sorted.of_cons
    · apply pairwise_cons.mpr ⟨?_, ih sorted.of_cons⟩
      intro later mem
      obtain ⟨found, stands, _⟩ := keys_removeNullFields mem
      exact (pairwise_cons.mp sorted).1 (later.1, found) stands

theorem wellFormed_of_mem (wellFormed : Value.FieldsWellFormed fields) (mem : field ∈ fields) :
    field.2.WellFormed := by
  induction fields with
  | nil => cases mem
  | cons first _ ih =>
    obtain ⟨_, _⟩ := first
    rcases mem_cons.mp mem with here | later
    · rw [here]
      exact wellFormed.1
    · exact ih wellFormed.2 later

theorem mergeable_removeNullObjectFields (value : Value Number) :
    value.WellFormed → Mergeable (removeNullObjectFields value) := by
  induction value using object_induction with
  | leaf value notObject =>
    intro _
    cases value with
    | object => cases notObject
    | _ => simp [removeNullObjectFields, Mergeable]
  | object _ ih =>
    intro wellFormed
    rw [removeNullObjectFields, mergeable_object]
    refine ⟨sorted_removeNullFields wellFormed.1, fun field mem => ?_⟩
    obtain ⟨_, stands, notNull, removed⟩ := keys_removeNullFields mem
    rw [removed, isNull_removeNullObjectFields]
    exact ⟨notNull, ih _ stands (wellFormed_of_mem wellFormed.2 stands)⟩

theorem mergeable_insert {value : Value Number} (mergeable : Mergeable (.object fields))
    (notNull : value.isNull = false) (valueMergeable : Mergeable value) (key : String) :
    Mergeable (.object (insert key value fields)) := by
  rw [mergeable_object] at mergeable ⊢
  refine ⟨sorted_insert mergeable.1 key value, fun field mem => ?_⟩
  rcases mem_of_mem_insert mem with here | inside
  · rw [here]
    exact ⟨notNull, valueMergeable⟩
  · exact mergeable.2 field inside

theorem mergeable_sectionSnapshot {«section» : Section Number} {snapshot : Value Number}
    (taken : «section».snapshot = some snapshot) :
    snapshot.isNull = false ∧ Mergeable snapshot := by
  rw [Section.snapshot] at taken
  split at taken
  · cases taken
  · rename_i serialized found
    dsimp only at taken
    split at taken
    · cases taken
    · rename_i notNull
      cases taken
      exact ⟨Bool.eq_false_of_not_eq_true notNull,
        mergeable_removeNullObjectFields serialized («section».wellFormed serialized found)⟩

/-- Every snapshot can be reached by merge patches. -/
theorem mergeable_snapshot (worldState : WorldState Number) :
    Mergeable worldState.snapshot.intoObject := by
  rw [intoObject, WorldState.snapshot]
  refine List.foldlRecOn (motive := fun fields => Mergeable (.object fields)) worldState.sections _
    (mergeable_object.mpr ⟨.nil, by simp⟩) ?_
  intro fields mergeable first _
  split
  · rename_i taken
    obtain ⟨notNull, inside⟩ := mergeable_sectionSnapshot taken
    exact mergeable_insert mergeable notNull inside first.id
  · exact mergeable

/-! ### Replay of the records -/

section Records

variable [DecidableEq Number]

theorem mergePatchFrom_eq_none (current previous : WorldState Number) :
    current.snapshot.mergePatchFrom previous.snapshot = none ↔
      current.snapshot = previous.snapshot := by
  have empty := patchFields_eq_nil (mergeable_snapshot previous) (mergeable_snapshot current)
  rw [mergePatchFrom]
  split
  · rename_i isEmpty
    have same := empty.mp (isEmpty_iff.mp isEmpty)
    exact ⟨fun _ => congrArg mk same, fun _ => rfl⟩
  · rename_i notEmpty
    constructor
    · exact nofun
    · intro same
      exact absurd (isEmpty_iff.mpr (empty.mpr (congrArg sections same))) notEmpty

theorem applyMergePatch_mergePatchFrom {current previous : WorldState Number} {patch : Fields Number}
    (created : current.snapshot.mergePatchFrom previous.snapshot = some patch) :
    previous.snapshot.applyMergePatch patch = current.snapshot := by
  rw [mergePatchFrom] at created
  split at created
  · cases created
  · cases created
    rw [applyMergePatch, applyFields_patchFields_of_mergeable
      (mergeable_snapshot previous) (mergeable_snapshot current)]

variable (tools : HistoryTools (Value Number))

/-- The replay of the record of one world state leads from the snapshot before it to its
own. -/
theorem replay_updateWorldState
    (baseline : Option (WorldState Number)) (worldState : WorldState Number) :
    ((updateWorldState (baseline.map WorldState.snapshot) worldState.snapshot).toList.map
        .worldState).foldl (replayWorldState (withMergePatch tools))
        (baseline.map fun previous => previous.snapshot.intoObject) =
      some worldState.snapshot.intoObject := by
  cases baseline with
  | none => rfl
  | some previous =>
    rw [map_some, map_some, updateWorldState]
    cases created : worldState.snapshot.mergePatchFrom previous.snapshot with
    | none => simp [(mergePatchFrom_eq_none worldState previous).mp created]
    | some =>
      simp [replayWorldState, withMergePatch, mergeStates, intoObject,
        Value.asObject, ← applyMergePatch_mergePatchFrom created]

theorem replay_persistedItems (worldStates : List (WorldState Number)) :
    ∀ (baseline : Option (WorldState Number)),
      (persistedItems (baseline.map WorldState.snapshot) worldStates).foldl
          (replayWorldState (withMergePatch tools))
          (baseline.map fun previous => previous.snapshot.intoObject) =
        (worldStates.getLast?.or baseline).map fun last => last.snapshot.intoObject := by
  induction worldStates with
  | nil =>
    intro baseline
    simp [persistedItems]
  | cons worldState worldStates ih =>
    intro baseline
    have rest := ih (some worldState)
    rw [persistedItems, foldl_append, replay_updateWorldState]
    rw [map_some, map_some] at rest
    rw [rest]
    cases worldStates with
    | nil => simp
    | cons => simp [getLast?_cons]

/-- The first world state in full and then the patches, replayed in their order, give the
last world state; a patch is missing exactly where nothing changed. -/
theorem worldStates_rebuilt : (∀ (first : WorldState Number) (worldStates : List (WorldState Number)),
    (persistedItems none (first :: worldStates)).foldl (replayWorldState (withMergePatch tools))
        none =
      some (((first :: worldStates).getLast (cons_ne_nil _ _)).snapshot.intoObject)) ∧
    ∀ current previous : WorldState Number, current.snapshot.mergePatchFrom previous.snapshot = none ↔
        current.snapshot = previous.snapshot := by
  constructor
  · intro first worldStates
    have replayed := replay_persistedItems tools (first :: worldStates) none
    rw [map_none, map_none] at replayed
    rw [replayed, getLast?_eq_getLast_of_ne_nil (cons_ne_nil _ _), some_or, map_some]
  · exact mergePatchFrom_eq_none

end Records

end WeaveCodex.Context
