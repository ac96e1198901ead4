/-
Purpose: Maps that keep several values for a key, in the order in which they were
  inserted, as the crate `multimap` documents it of `insert` and `get_vec`.
-/

namespace WeaveCodex.Library

universe u v

/-- The entries, oldest first. -/
structure MultiMap (κ : Type u) (ν : Type v) where
  entries : List (κ × ν) := []
deriving DecidableEq, Repr

namespace MultiMap

variable {κ : Type u} {ν : Type v} [DecidableEq κ]

def insert (map : MultiMap κ ν) (key : κ) (value : ν) : MultiMap κ ν :=
  ⟨map.entries ++ [(key, value)]⟩

/-- The values of a key. -/
def getVec (map : MultiMap κ ν) (key : κ) : List ν :=
  map.entries.filterMap fun entry => if entry.1 = key then some entry.2 else none

/-- The entries of another map after those of this one. -/
def insertAll (map other : MultiMap κ ν) : MultiMap κ ν :=
  ⟨map.entries ++ other.entries⟩

theorem getVec_insert (map : MultiMap κ ν) (key other : κ) (value : ν) :
    (map.insert key value).getVec other = map.getVec other ++ if key = other then [value] else [] := by
  unfold insert getVec
  rw [List.filterMap_append]
  by_cases same : key = other
  · simp [same]
  · simp [same]

theorem getVec_insertAll (map other : MultiMap κ ν) (key : κ) :
    (map.insertAll other).getVec key = map.getVec key ++ other.getVec key := by
  unfold insertAll getVec
  exact List.filterMap_append

end MultiMap

end WeaveCodex.Library
