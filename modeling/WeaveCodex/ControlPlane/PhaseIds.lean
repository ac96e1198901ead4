/-
Purpose: The ids that `safe_phase_id` makes of names.
Trusted boundary: translation of `safe_phase_id` in `phase_program.py`; lower-casing is a
  parameter
-/
import Mathlib.Data.List.DropRight
import WeaveCodex.ControlPlane.CanvasModel

namespace WeaveCodex.ControlPlane

open Library.FreshCandidate Nat
open Canvas (isLetter dashRuns)

namespace SafePhaseId

/-- `text.rstrip("-")`. -/
def rstrip (text : List Char) : List Char :=
  text.rdropWhile (· == '-')

/-- `f"-{suffix}"`. -/
def ending (suffix : Nat) : List Char :=
  '-' :: toDigits 10 suffix

/-- The candidate of the loop; a negative end of a slice counts from the end. -/
def candidate (base : List Char) (suffix : Nat) : List Char :=
  let size := (ending suffix).length
  rstrip (base.take (if size ≤ 48 then 48 - size else base.length - (size - 48))) ++ ending suffix

variable (lower : List Char → List Char) (name : String)

/-- The name in lower case, with dashes for all else and none at the ends. -/
def slug : List Char :=
  rstrip ((dashRuns false (lower name.toList)).dropWhile (· == '-'))

/-- The value of `base` before the loop; a letter is all that `isalpha` can find here. -/
def base : List Char :=
  let base := if slug lower name = [] then "phase".toList else slug lower name
  let base := if base.head?.any isLetter then base else "phase-".toList ++ base
  rstrip (base.take 48)

end SafePhaseId

open SafePhaseId in
/-- The loop gets one turn more than there are ids. -/
def safePhaseId (lower : List Char → List Char) (name : String) (existing : List String) :
    Option String :=
  let base := base lower name
  if String.ofList base ∈ existing then
    freshFrom (fun suffix => String.ofList (candidate base suffix)) existing (existing.length + 1) 2
  else some (String.ofList base)

end WeaveCodex.ControlPlane
