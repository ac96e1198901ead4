/-
Purpose: Plain names of domains: what normalising and parsing make of them, which hosts a
  plain pattern names, and when the hosts of one pattern are hosts of another.
-/
import Mathlib.Data.List.DropRight
import WeaveCodex.ApplyPatch.Proofs.PatchText
import WeaveCodex.NetworkProxy.DomainPattern

namespace WeaveCodex.NetworkProxy

open ApplyPatch List DomainPattern

/-! ### The characters of a name -/

/-- Letters, digits, hyphens and dots. -/
def isNameChar (char : Char) : Bool :=
  char.isAlphanum || char = '-' || char = '.'

def PlainName (name : String) : Prop :=
  ∀ char ∈ name.toList, isNameChar char = true

variable {char : Char}

theorem isNameChar_iff : isNameChar char = true ↔
    (48 ≤ char.toNat ∧ char.toNat ≤ 57) ∨ (65 ≤ char.toNat ∧ char.toNat ≤ 90) ∨
      (97 ≤ char.toNat ∧ char.toNat ≤ 122) ∨ char.toNat = 45 ∨ char.toNat = 46 := by
  have code : char.val.toNat = char.toNat := rfl
  delta isNameChar Char.isAlphanum Char.isAlpha Char.isUpper Char.isLower Char.isDigit
  simp only [Bool.or_eq_true, Bool.and_eq_true, decide_eq_true_eq, UInt32.le_iff_toNat_le,
    ← Char.toNat_inj, ge_iff_le, code, Char.reduceVal, UInt32.reduceToNat, Char.reduceToNat]
  omega

theorem toNat_toLower (char : Char) : char.toLower.toNat =
    if 65 ≤ char.toNat ∧ char.toNat ≤ 90 then char.toNat + 32 else char.toNat := by
  delta Char.toLower
  simp only [ge_iff_le, UInt32.le_iff_toNat_le]
  split <;> grind [UInt32.toNat_add, Char.toNat]

theorem isNameChar_toLower (named : isNameChar char = true) : isNameChar char.toLower = true := by
  rw [isNameChar_iff] at named ⊢
  rw [toNat_toLower]
  grind

/-- Only a letter becomes a letter. -/
theorem toLower_eq_iff {sign : Char} (noLetter : sign.toNat < 65 ∨ isNameChar sign = false) :
    char.toLower = sign ↔ char = sign := by
  rw [← Char.toNat_inj, ← Char.toNat_inj, toNat_toLower]
  rw [← Bool.not_eq_true, isNameChar_iff] at noLetter
  split <;> omega

/-- A name has none of the characters with a meaning of their own. -/
theorem isNameChar_plain (named : isNameChar char = true) :
    isWhitespace char = false ∧ char ≠ '*' ∧ char ≠ '[' ∧ char ≠ ':' ∧ char ≠ '%' := by
  have code := isNameChar_iff.mp named
  refine ⟨?_, ?_, ?_, ?_, ?_⟩
  · unfold isWhitespace
    simp only [Bool.or_eq_false_iff, Bool.and_eq_false_iff, decide_eq_false_iff_not, beq_eq_false_iff_ne]
    omega
  all_goals
    rintro rfl
    exact absurd code (by decide)

/-! ### Normalised names -/

/-- The name in lower case, without the dots at its end. -/
def nameChars (name : String) : List Char :=
  (name.toList.map Char.toLower).rdropWhile (· = '.')

theorem rdropWhile_map_toLower (chars : List Char) : (chars.map Char.toLower).rdropWhile (· = '.') =
    (chars.rdropWhile (· = '.')).map Char.toLower := by
  have same : (fun char => decide (char = '.')) ∘ Char.toLower = fun char => decide (char = '.') := by
    funext char
    simp [toLower_eq_iff]
  rw [rdropWhile, rdropWhile, ← map_reverse, dropWhile_map, same, map_reverse]

variable (name : String)

theorem normalizeDomain_eq : normalizeDomain name = String.ofList (nameChars name) := by
  rw [normalizeDomain, toAsciiLowercase, trimEndDots, String.toList_ofList, nameChars,
    rdropWhile_map_toLower]

theorem map_toLower_map (chars : List Char) :
    (chars.map Char.toLower).map Char.toLower = chars.map Char.toLower := by
  rw [map_map]
  refine map_congr_left fun char _ => Char.toNat_inj.mp ?_
  simp only [Function.comp_apply, toNat_toLower]
  grind

theorem map_toLower_nameChars : (nameChars name).map Char.toLower = nameChars name := by
  rw [nameChars, rdropWhile_map_toLower, map_toLower_map]

/-- Normalising twice is normalising once. -/
theorem nameChars_ofList :
    nameChars (String.ofList (nameChars name)) = nameChars name := by
  rw [nameChars, String.toList_ofList, map_toLower_nameChars, nameChars, rdropWhile_idempotent]

theorem nameChars_lowercase : nameChars (toAsciiLowercase name) = nameChars name := by
  rw [nameChars, toAsciiLowercase, String.toList_ofList, map_toLower_map, nameChars]

variable {name : String}

theorem isNameChar_nameChars (plain : PlainName name) :
    ∀ char ∈ nameChars name, isNameChar char = true := by
  intro char mem
  have inLower := (IsPrefix.subset <| rdropWhile_prefix _ _) mem
  obtain ⟨original, originalMem, rfl⟩ := mem_map.mp inLower
  exact isNameChar_toLower (plain original originalMem)

/-! ### Normalising plain text -/

variable {text : String} {rest managedName : List Char} {managed candidate : Wildcard}

theorem trim_visible (visible : ∀ char ∈ text.toList, isWhitespace char = false) :
    trim text = text := by
  apply String.toList_inj.mp
  rw [toList_trim]
  have front : text.toList.dropWhile isWhitespace = text.toList := by
    cases chars : text.toList with
    | nil => rfl
    | cons char =>
      rw [dropWhile_cons, visible char (by rw [chars]; exact mem_cons_self),
        if_neg Bool.false_ne_true]
  rw [front, rdropWhile_eq_self_iff]
  intro nonempty
  simp [visible _ (getLast_mem nonempty)]

theorem splitOnceChars_none {text : List Char} (absent : char ∉ text) :
    splitOnceChars (char :: rest) text = none := by
  induction text with
  | nil => rfl
  | cons first text induction =>
    rw [mem_cons, not_or] at absent
    have noLead : (char :: rest).isPrefixOf (first :: text) = false := by
      simp [isPrefixOf, absent.1]
    rw [splitOnceChars, noLead, if_neg Bool.false_ne_true, induction absent.2]
    rfl

theorem splitOnce_none (delimiter : String) (leads : delimiter.toList = char :: rest)
    (absent : char ∉ text.toList) :
    splitOnce delimiter text = none := by
  rw [splitOnce, leads, splitOnceChars_none absent]
  rfl

variable (parseIp : String → Option IpAddr)

theorem normalizeIpLiteral_plain {host : String} (absent : '%' ∉ host.toList) :
    (normalizeIpLiteral parseIp host).getD host = host := by
  unfold normalizeIpLiteral
  split
  · rfl
  · rw [findSome?_cons, splitOnce_none "%25" rfl absent]
    simp only
    rw [findSome?_cons, splitOnce_none "%" rfl absent]
    rfl

/-- A plain name is lowered and loses its trailing dots. -/
theorem normalizeHost_plain (plain : PlainName name) :
    normalizeHost parseIp name = String.ofList (nameChars name) := by
  have trimmed : trim name = name :=
    trim_visible fun char mem => (isNameChar_plain (plain char mem)).1
  have noScope : '%' ∉ (String.ofList (nameChars name)).toList := by
    rw [String.toList_ofList]
    intro mem
    exact (isNameChar_plain (isNameChar_nameChars plain _ mem)).2.2.2.2 rfl
  have whole : normalizeDnsHostOrIpLiteral parseIp name = String.ofList (nameChars name) := by
    unfold normalizeDnsHostOrIpLiteral
    rw [trimEndDots, toAsciiLowercase, String.toList_ofList, ← nameChars]
    exact normalizeIpLiteral_plain parseIp noScope
  have noPort : name.toList.count ':' ≠ 1 := by
    rw [count_eq_zero_of_not_mem]
    · decide
    · intro mem
      exact (isNameChar_plain (plain _ mem)).2.2.2.1 rfl
  unfold normalizeHost
  simp only [trimmed]
  split
  · rename_i bracketed
    have bracket : '[' ∈ name.toList := by
      rw [bracketed]
      exact mem_cons_self
    exact absurd rfl (isNameChar_plain (plain _ bracket)).2.2.1
  · rw [if_neg noPort, whole]

/-! ### Plain patterns -/

/-- What a pattern says before its name. -/
inductive Wildcard where
  | exactly | below | apexAndBelow
deriving DecidableEq, Repr

def Wildcard.lead : Wildcard → String
  | .exactly => ""
  | .below => "*."
  | .apexAndBelow => "**."

def PlainPattern (pattern : String) : Prop :=
  ∃ wildcard : Wildcard, ∃ name, PlainName name ∧ pattern = wildcard.lead ++ name

variable (wildcard : Wildcard)

theorem visible_lead (plain : PlainName name) :
    ∀ char ∈ (wildcard.lead ++ name).toList, isWhitespace char = false := by
  intro char mem
  rw [String.toList_append, mem_append] at mem
  rcases mem with leading | named
  · have visible : wildcard.lead.toList.any isWhitespace = false := by
      cases wildcard with
      | exactly => rfl
      | below | apexAndBelow => decide
    exact Bool.eq_false_of_not_eq_true (any_eq_false.mp visible char leading)
  · exact (isNameChar_plain (plain char named)).1

/-- The name of a pattern is found behind its wildcard, and no other wildcard is found. -/
theorem stripLeading_lead (plain : PlainName name) : stripLeading "**." (wildcard.lead ++ name) =
      (if wildcard = .apexAndBelow then some name else none) ∧
    (wildcard ≠ .apexAndBelow → stripLeading "*." (wildcard.lead ++ name) =
      if wildcard = .below then some name else none) := by
  have noStar : name.toList.head? ≠ some '*' := by
    intro starts
    exact (isNameChar_plain (plain _ (mem_of_mem_head? starts))).2.1 rfl
  cases wildcard with
  | exactly =>
    have whole : Wildcard.exactly.lead ++ name = name := String.empty_append
    rw [whole]
    exact ⟨stripLeading_eq_none "**." '*' rfl noStar, fun _ => stripLeading_eq_none "*." '*' rfl noStar⟩
  | below =>
    refine ⟨?_, fun _ => stripLeading_eq_some.mpr rfl⟩
    cases stripped : stripLeading "**." (Wildcard.below.lead ++ name) with
    | none => rfl
    | some =>
      have whole := congrArg String.toList (stripLeading_eq_some.mp stripped)
      rw [String.toList_append, String.toList_append] at whole
      cases whole
  | apexAndBelow => exact ⟨stripLeading_eq_some.mpr rfl, fun other => absurd rfl other⟩

/-- Of a plain pattern only the name is normalised. -/
theorem normalizePattern_plain (tools : NetworkTools) (wildcard : Wildcard) (plain : PlainName name) :
    normalizePattern tools (wildcard.lead ++ name) =
      wildcard.lead ++ String.ofList (nameChars name) := by
  obtain ⟨apex, below⟩ := stripLeading_lead wildcard plain
  have notStar : wildcard.lead ++ name ≠ "*" := by
    intro isStar
    have chars := congrArg String.toList isStar
    rw [String.toList_append] at chars
    cases wildcard with
    | exactly =>
      have star : '*' ∈ name.toList := by
        rw [show name.toList = ['*'] from chars]
        exact mem_cons_self
      exact (isNameChar_plain (plain _ star)).2.1 rfl
    | below | apexAndBelow => cases chars
  unfold normalizePattern
  simp only [trim_visible (visible_lead wildcard plain), if_neg notStar, apex]
  cases wildcard with
  | exactly =>
    simp only [reduceCtorEq, if_false, below (by decide)]
    rw [show Wildcard.exactly.lead ++ name = name from String.empty_append,
      normalizeHost_plain tools.parseIp plain]
    exact String.empty_append.symm
  | below =>
    simp only [reduceCtorEq, if_false, below (by decide), if_true]
    rw [normalizeHost_plain tools.parseIp plain]
    rfl
  | apexAndBelow =>
    simp only [if_true]
    rw [normalizeHost_plain tools.parseIp plain]
    rfl

/-- Patterns that differ in case only are the same pattern. -/
theorem normalizePattern_lowercase (tools : NetworkTools) {pattern : String}
    (plain : PlainPattern pattern) :
    normalizePattern tools (toAsciiLowercase pattern) = normalizePattern tools pattern := by
  obtain ⟨wildcard, name, plainName, rfl⟩ := plain
  have lowered : toAsciiLowercase (wildcard.lead ++ name) = wildcard.lead ++ toAsciiLowercase name := by
    apply String.toList_inj.mp
    simp only [toAsciiLowercase, String.toList_ofList, String.toList_append, map_append]
    cases wildcard with
    | _ => rfl
  have plainLower : PlainName (toAsciiLowercase name) := by
    rw [PlainName, toAsciiLowercase, String.toList_ofList]
    exact forall_mem_map.mpr fun char mem => isNameChar_toLower (plainName char mem)
  rw [lowered, normalizePattern_plain tools wildcard plainLower,
    normalizePattern_plain tools wildcard plainName, nameChars_lowercase]

/-- The pattern with a wildcard and a normalised name. -/
def patternOf : Wildcard → List Char → DomainPattern
  | .exactly, name => .exact (String.ofList name)
  | .below, name => if name = [] then .exact "" else .subdomainsOnly (String.ofList name)
  | .apexAndBelow, name => if name = [] then .exact "" else .apexAndSubdomains (String.ofList name)

variable {name domain : List Char}

theorem plainName_ofList : PlainName (String.ofList name) ↔ ∀ char ∈ name, isNameChar char = true := by
  rw [PlainName, String.toList_ofList]

/-- A plain pattern is parsed to its wildcard and its name. -/
theorem parse_plain (plain : ∀ char ∈ name, isNameChar char = true) :
    parse (wildcard.lead ++ String.ofList name) = patternOf wildcard name := by
  have plainName := plainName_ofList.mpr plain
  have trimmed : trim (String.ofList name) = String.ofList name :=
    trim_visible fun char mem => (isNameChar_plain (plainName char mem)).1
  obtain ⟨apex, below⟩ := stripLeading_lead wildcard plainName
  have nonempty (isWild : wildcard ≠ .exactly) :
      (wildcard.lead ++ String.ofList name).isEmpty = false := by
    rw [← Bool.not_eq_true, String.isEmpty_iff]
    intro isEmpty
    have chars := congrArg String.toList isEmpty
    rw [String.toList_append] at chars
    cases wildcard with
    | exactly => exact isWild rfl
    | below | apexAndBelow => cases chars
  have emptyIff : (String.ofList name).isEmpty = true ↔ name = [] := by
    rw [String.isEmpty_iff, ← String.toList_inj, String.toList_ofList]
    rfl
  unfold parse parseDomain
  simp only [trim_visible (visible_lead wildcard plainName), apex]
  cases wildcard with
  | exactly =>
    have whole : Wildcard.exactly.lead ++ String.ofList name = String.ofList name :=
      String.empty_append
    simp only [whole, reduceCtorEq, if_false] at below ⊢
    split
    · rename_i isEmpty
      rw [emptyIff.mp isEmpty]
      rfl
    · simp only [below (by decide)]
      rfl
  | below =>
    simp only [nonempty (by decide), Bool.false_eq_true, reduceCtorEq, if_false,
      below (by decide), if_true, trimmed, emptyIff]
    rfl
  | apexAndBelow =>
    simp only [nonempty (by decide), Bool.false_eq_true, if_false, if_true, trimmed, emptyIff]
    rfl

/-! ### The hosts of a pattern -/

/-- A name without empty labels. -/
structure WellFormed (name : List Char) : Prop where
  nonempty : name ≠ []
  starts : name.head? ≠ some '.'
  ends : name.getLast? ≠ some '.'
  labels : ¬ ['.', '.'] <:+: name

/-- The hosts below a domain. -/
def Below (host domain : List Char) : Prop :=
  ∃ front, front ≠ [] ∧ host = front ++ '.' :: domain

/-- The normalised hosts that a wildcard with a name stands for. -/
def Names : Wildcard → List Char → List Char → Prop
  | .exactly, name, host => host = name
  | .below, name, host => Below host name
  | .apexAndBelow, name, host => host = name ∨ Below host name

/-- What `allows` compares, for normalised names. -/
def Covers : Wildcard → List Char → Wildcard → List Char → Prop
  | .exactly, managed, .exactly, candidate => candidate = managed
  | .exactly, _, _, _ => False
  | .below, managed, .below, candidate => candidate = managed ∨ '.' :: managed <:+ candidate
  | .below, managed, _, candidate => candidate ≠ managed ∧ '.' :: managed <:+ candidate
  | .apexAndBelow, managed, _, candidate => candidate = managed ∨ '.' :: managed <:+ candidate

variable {host domain : List Char}

/-- A domain above a well-formed host is well formed. -/
theorem WellFormed.of_below (wellFormed : WellFormed host) (below : Below host domain) :
    WellFormed domain := by
  obtain ⟨front, _, rfl⟩ := below
  have suffix : domain <:+ front ++ '.' :: domain := ⟨front ++ ['.'], by simp⟩
  have nonempty : domain ≠ [] := by
    rintro rfl
    exact wellFormed.ends (by simp)
  refine ⟨nonempty, ?_, ?_, ?_⟩
  · intro starts
    apply wellFormed.labels
    cases domain with
    | nil => cases starts
    | cons _ rest =>
      cases starts
      exact ⟨front, rest, by simp⟩
  · intro ends
    apply wellFormed.ends
    rw [getLast?_append_of_ne_nil _ (by simp), getLast?_cons, ends]
    rfl
  · intro doubled
    exact wellFormed.labels (doubled.trans suffix.isInfix)

/-- One more label in front of a name. -/
theorem WellFormed.cons_label (wellFormed : WellFormed domain) (label : char ≠ '.') :
    WellFormed (char :: '.' :: domain) := by
  refine ⟨by simp, by simpa using label, ?_, ?_⟩
  · have nonempty := wellFormed.nonempty
    have ends := wellFormed.ends
    cases domain with
    | nil => contradiction
    | cons => simpa using ends
  · rintro ⟨front, back, whole⟩
    cases front with
    | nil =>
      cases whole
      exact label rfl
    | cons _ front =>
      cases front with
      | nil =>
        cases whole
        exact wellFormed.starts rfl
      | cons _ front =>
        cases whole
        exact wellFormed.labels ⟨front, back, by simp⟩

/-- The hosts below a name in which a host lies. -/
theorem below_of_suffix (wellFormed : WellFormed host) (suffix : '.' :: domain <:+ host) :
    Below host domain := by
  obtain ⟨front, rfl⟩ := suffix
  refine ⟨front, ?_, rfl⟩
  rintro rfl
  exact wellFormed.starts rfl

theorem Below.suffix (below : Below host domain) : '.' :: domain <:+ host := by
  obtain ⟨front, _, rfl⟩ := below
  exact ⟨front, rfl⟩

theorem Below.trans {host middle : List Char} (first : Below host middle)
    (suffix : middle = domain ∨ '.' :: domain <:+ middle) : Below host domain := by
  obtain ⟨front, nonempty, rfl⟩ := first
  rcases suffix with rfl | ⟨between, rfl⟩
  · exact ⟨front, nonempty, rfl⟩
  · exact ⟨front ++ '.' :: between, by simp, by simp⟩

/-- Whatever covers a name has its hosts. -/
theorem names_of_covers {host : List Char} (covers : Covers managed managedName candidate name)
    (wellFormed : WellFormed host) (named : Names candidate name host) :
    Names managed managedName host := by
  cases managed with
  | exactly =>
    cases candidate with
    | exactly => exact named.trans covers
    | below | apexAndBelow => exact covers.elim
  | below =>
    cases candidate with
    | exactly =>
      rw [show host = name from named] at wellFormed ⊢
      exact below_of_suffix wellFormed covers.2
    | below => exact Below.trans named covers
    | apexAndBelow =>
      rcases named with same | below
      · rw [same] at wellFormed ⊢
        exact below_of_suffix wellFormed covers.2
      · exact below.trans (.inr covers.2)
  | apexAndBelow =>
    have itself (same : host = name) : host = managedName ∨ Below host managedName := by
      rcases covers with isManaged | suffix
      · exact .inl (same.trans isManaged)
      · rw [same] at wellFormed ⊢
        exact .inr (below_of_suffix wellFormed suffix)
    cases candidate with
    | exactly => exact itself named
    | below => exact .inr (Below.trans named covers)
    | apexAndBelow =>
      rcases named with same | below
      · exact itself same
      · exact .inr (below.trans covers)

/-- The characters of a host that is normalised and has no empty label. -/
structure NormalHost (host : List Char) : Prop where
  wellFormed : WellFormed host
  plain : ∀ char ∈ host, isNameChar char = true
  lower : host.map Char.toLower = host

theorem NormalHost.cons_label (normal : NormalHost domain) (plain : isNameChar char = true)
    (label : char ≠ '.') (lower : char.toLower = char) :
    NormalHost (char :: '.' :: domain) := by
  refine ⟨normal.wellFormed.cons_label label, ?_, ?_⟩
  · exact forall_mem_cons.mpr ⟨plain, forall_mem_cons.mpr ⟨rfl, normal.plain⟩⟩
  · rw [map_cons, map_cons, lower, normal.lower]
    rfl

theorem Below.length_lt (below : Below host domain) : domain.length < host.length := by
  obtain ⟨_, _, rfl⟩ := below
  simp only [length_append, length_cons]
  omega

theorem below_label (below : Below (char :: '.' :: name) domain) :
    name = domain ∨ '.' :: domain <:+ name := by
  obtain ⟨front, nonempty, whole⟩ := below
  cases front with
  | nil => contradiction
  | cons _ rest =>
    cases rest with
    | nil =>
      cases whole
      exact .inl rfl
    | cons _ rest =>
      cases whole
      exact .inr ⟨rest, rfl⟩

/-- Two hosts below a name that no single name can stand for. -/
theorem covers_of_names (normal : NormalHost name)
    (contained : ∀ host, NormalHost host → Names candidate name host → Names managed managedName host) :
    Covers managed managedName candidate name := by
  have first : NormalHost ('a' :: '.' :: name) := normal.cons_label rfl (by decide) rfl
  have second : NormalHost ('b' :: '.' :: name) := normal.cons_label rfl (by decide) rfl
  have firstBelow : Below ('a' :: '.' :: name) name := ⟨['a'], by simp, rfl⟩
  have secondBelow : Below ('b' :: '.' :: name) name := ⟨['b'], by simp, rfl⟩
  have strict (below : Below name managedName) : name ≠ managedName ∧ '.' :: managedName <:+ name := by
    refine ⟨?_, below.suffix⟩
    rintro rfl
    exact absurd below.length_lt (Nat.lt_irrefl _)
  cases managed with
  | exactly =>
    have single (isFirst : 'a' :: '.' :: name = managedName)
        (isSecond : 'b' :: '.' :: name = managedName) : False := by
      rw [← isSecond] at isFirst
      cases isFirst
    cases candidate with
    | exactly => exact contained name normal rfl
    | below => exact single (contained _ first firstBelow) (contained _ second secondBelow)
    | apexAndBelow =>
      exact single (contained _ first (.inr firstBelow)) (contained _ second (.inr secondBelow))
  | below =>
    cases candidate with
    | exactly => exact strict (contained name normal rfl)
    | below => exact below_label (contained _ first firstBelow)
    | apexAndBelow => exact strict (contained name normal (.inl rfl))
  | apexAndBelow =>
    have itself (named : Names .apexAndBelow managedName name) :
        name = managedName ∨ '.' :: managedName <:+ name :=
      named.imp_right Below.suffix
    cases candidate with
    | exactly => exact itself (contained name normal rfl)
    | apexAndBelow => exact itself (contained name normal (.inl rfl))
    | below =>
      rcases contained _ first firstBelow with isFirst | below
      · rcases contained _ second secondBelow with isSecond | longer
        · rw [← isFirst] at isSecond
          cases isSecond
        · have length := longer.length_lt
          rw [← isFirst] at length
          exact absurd length (by simp)
      · exact below_label below

end WeaveCodex.NetworkProxy
