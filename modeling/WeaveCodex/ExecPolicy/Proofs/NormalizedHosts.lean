/-
Purpose: For which texts the second normalisation of the host of a network rule changes nothing.
-/
import WeaveCodex.ExecPolicy.NetworkRuleHosts
import WeaveCodex.NetworkProxy.Proofs.DomainNames

namespace WeaveCodex.ExecPolicy

open ApplyPatch NetworkProxy List

variable {raw host : String} {text part : List Char}

/-- The text has no bracket and no port to take off. -/
@[mk_iff]
structure Bare (text : List Char) : Prop where
  noBracket : text.head? ≠ some '['
  noPort : ¬ (text.count ':' = 1 ∧ text.takeWhile (· ≠ ':') ≠ [] ∧ isPort (text.dropWhile (· ≠ ':')))

/-- What a result has been checked for. -/
structure Acceptable (raw normalized : String) : Prop where
  nonempty : trim raw ≠ ""
  noPath : ¬ (trim raw).toList.any (· ∈ ['/', '?', '#']) = true
  named : normalized ≠ ""
  specific : '*' ∉ normalized.toList
  visible : ¬ normalized.toList.any isWhitespace = true

theorem normalizeNetworkRuleHost_ok_iff : normalizeNetworkRuleHost raw = .ok host ↔
    ∃ part, networkRuleHostPart raw (trim raw).toList = .ok part ∧
      toAsciiLowercase (trim (trimEndDots (String.ofList part))) = host ∧ Acceptable raw host := by
  unfold normalizeNetworkRuleHost
  constructor
  · intro accepted
    simp only at accepted
    repeat' split at accepted
    all_goals try simp only [reduceCtorEq] at accepted
    rename_i nonempty noPath _ part unwrapped named specific visible
    obtain rfl := Except.ok.inj accepted
    exact ⟨part, unwrapped, rfl, nonempty, noPath, named, specific, visible⟩
  · rintro ⟨part, unwrapped, rfl, nonempty, noPath, named, specific, visible⟩
    simp only [unwrapped, if_neg nonempty, if_neg noPath, if_neg named, if_neg specific, if_neg visible]

theorem networkRuleHostPart_of_bare (bare : Bare text) : networkRuleHostPart raw text = .ok text := by
  unfold networkRuleHostPart
  split
  · exact absurd rfl bare.noBracket
  · exact if_neg bare.noPort

theorem networkRuleHostPart_ok (unwrapped : networkRuleHostPart raw text = .ok part) :
    part <+ text ∧ (part = text → Bare text) := by
  unfold networkRuleHostPart at unwrapped
  split at unwrapped
  · simp only at unwrapped
    repeat' split at unwrapped
    all_goals cases unwrapped
    refine ⟨(takeWhile_sublist _).cons _, fun same => ?_⟩
    exact absurd (congrArg length same) (Nat.lt_succ_of_le (takeWhile_sublist _).length_le).ne
  · rename_i noBracket
    split at unwrapped <;> cases unwrapped
    · rename_i port
      refine ⟨takeWhile_sublist _, fun same => ?_⟩
      have colon : ':' ∈ text := count_pos_iff.mp (by rw [port.1]; exact Nat.one_pos)
      simpa using takeWhile_eq_self_iff.mp same _ colon
    · rename_i noPort
      refine ⟨.refl _, fun _ => ⟨fun bracket => ?_, noPort⟩⟩
      obtain ⟨stripped, rfl⟩ := head?_eq_some_iff.mp bracket
      exact noBracket stripped rfl

theorem isDigit_toLower (char : Char) : char.toLower.isDigit = char.isDigit := by
  simp only [Char.isDigit, ge_iff_le, UInt32.le_iff_toNat_le, Char.toNat_val, toNat_toLower]
  grind

theorem map_toLower_eq_some (sign : Char) (noLetter : sign.toNat < 65 ∨ isNameChar sign = false)
    {char : Option Char} : char.map Char.toLower = some sign ↔ char = some sign := by
  cases char <;> simp [toLower_eq_iff noLetter]

theorem bare_map_toLower : Bare (text.map Char.toLower) ↔ Bare text := by
  have colon (char : Char) : (char.toLower == ':') = (char == ':') := by
    rw [Bool.eq_iff_iff]
    simp [toLower_eq_iff]
  simp only [bare_iff, isPort, head?_map, map_toLower_eq_some '[' (.inr rfl), count_eq_countP,
    countP_map, takeWhile_map, dropWhile_map, Function.comp_def, colon, ne_eq,
    toLower_eq_iff (.inl (by decide) : ':'.toNat < 65 ∨ _), ← map_tail, all_map, isDigit_toLower,
    map_eq_nil_iff, map_toLower_eq_some ':' (.inl (by decide))]

theorem rdropWhile_dots_iff : text.rdropWhile (· = '.') = text ↔ text.getLast? ≠ some '.' := by
  rw [rdropWhile_eq_self_iff]
  cases text using reverseRecOn with
  | nil => simp
  | append_singleton => simp

/-- Normalising a host again changes nothing exactly if nothing more can be taken off. -/
theorem normalizeNetworkRuleHost_again_iff (raw host : String) (part : List Char)
    (unwrapped : networkRuleHostPart raw (trim raw).toList = .ok part)
    (accepted : normalizeNetworkRuleHost raw = .ok host) :
    normalizeNetworkRuleHost host = .ok host ↔
      let rest := (trim (trimEndDots (String.ofList part))).toList
      Bare rest ∧ rest.getLast? ≠ some '.' := by
  obtain ⟨_, same, isHost, acceptable⟩ := normalizeNetworkRuleHost_ok_iff.mp accepted
  cases unwrapped.symm.trans same
  have trimmed (part : List Char) :
      (trim (trimEndDots (String.ofList part))).toList <+ part.rdropWhile (· = '.') := by
    rw [toList_trim, trimEndDots, String.toList_ofList, String.toList_ofList]
    exact (IsPrefix.sublist <| rdropWhile_prefix _ _).trans (dropWhile_sublist _)
  have undotted (part : List Char) : part.rdropWhile (· = '.') <+ part :=
    IsPrefix.sublist <| rdropWhile_prefix _ _
  have chars : host.toList = (trim (trimEndDots (String.ofList part))).toList.map Char.toLower := by
    rw [← isHost, toAsciiLowercase, String.toList_ofList]
  have visible : trim host = host := trim_visible (by simpa using acceptable.visible)
  simp only
  rw [← bare_map_toLower, ne_eq, ← map_toLower_eq_some '.' (.inl (by decide)), ← getLast?_map,
    ← chars, normalizeNetworkRuleHost_ok_iff, visible]
  constructor
  · -- Nothing may be lost the second time, since the host keeps its length.
    rintro ⟨again, unwrapped, is, -⟩
    have kept : host.toList.length ≤ (again.rdropWhile (· = '.')).length := by
      rw [← is, toAsciiLowercase, String.toList_ofList, length_map]
      exact (trimmed again).length_le
    have inside := networkRuleHostPart_ok unwrapped
    obtain rfl := inside.1.eq_of_length_le (kept.trans (undotted again).length_le)
    exact ⟨inside.2 rfl, rdropWhile_dots_iff.mp ((undotted _).eq_of_length_le kept)⟩
  · rintro ⟨bare, noDot⟩
    refine ⟨host.toList, networkRuleHostPart_of_bare bare, ?_, { acceptable with nonempty := ?_, noPath := ?_ }⟩
    · rw [trimEndDots, String.toList_ofList, rdropWhile_dots_iff.mpr noDot, String.ofList_toList,
        visible, toAsciiLowercase, chars, map_toLower_map, ← chars, String.ofList_toList]
    · rw [visible]
      exact acceptable.named
    · rw [visible, chars, any_map]
      intro path
      obtain ⟨char, mem, isPath⟩ := any_eq_true.mp path
      have original := (networkRuleHostPart_ok unwrapped).1.subset
        ((undotted part).subset ((trimmed part).subset mem))
      refine acceptable.noPath (any_eq_true.mpr ⟨char, original, ?_⟩)
      simpa [toLower_eq_iff] using isPath

/-- A bare name stays as it is. -/
theorem normalizeNetworkRuleHost_again_name :
    normalizeNetworkRuleHost "a.b" = .ok "a.b" :=
  (normalizeNetworkRuleHost_again_iff "A.b." "a.b" ['A', '.', 'b', '.'] (by decide +kernel)
    (by decide +kernel)).mpr ⟨⟨by decide +kernel, fun port => absurd port.1 (by decide +kernel)⟩,
      by decide +kernel⟩

/-- Brackets around a name with a port, brackets in brackets, and dots with a space between. -/
theorem networkRuleHost_changes :
    normalizeNetworkRuleHost "[a:80]" = .ok "a:80" ∧ normalizeNetworkRuleHost "a:80" = .ok "a" ∧
      normalizeNetworkRuleHost "[[x]" = .ok "[x" ∧
      normalizeNetworkRuleHost "[x" =
        .error "network_rule host has an invalid bracketed IPv6 literal" ∧
      normalizeNetworkRuleHost "x. ." = .ok "x." ∧ normalizeNetworkRuleHost "x." = .ok "x" := by
  decide +kernel

end WeaveCodex.ExecPolicy
