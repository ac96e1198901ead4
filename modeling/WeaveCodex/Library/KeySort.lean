/-
Purpose: Stable sorting by a key, the last of the items with the largest key, the first
  occurrences in a list, and the text that a sorted list spells: of the order in which the items
  came it only shows the order of those with one key.
-/
import Mathlib.Data.List.MinMax
import Mathlib.Data.List.Sort

namespace WeaveCodex.Library.KeySort

open List

/-! ### Stable sorting -/

section Sorting

variable {α δ : Type*} [LinearOrder δ] (key : α → δ)

/-- A stable sort: items with one key keep their order. -/
def sortByKey (items : List α) : List α :=
  items.insertionSort fun first second => key first ≤ key second

theorem perm_sortByKey (items : List α) : (sortByKey key items).Perm items :=
  perm_insertionSort _ items

theorem pairwise_sortByKey (items : List α) :
    (sortByKey key items).Pairwise fun first second => key first ≤ key second := by
  have total : Std.Total fun first second : α => key first ≤ key second :=
    ⟨fun first second => le_total (key first) (key second)⟩
  have transitive : IsTrans α fun first second => key first ≤ key second :=
    ⟨fun _ _ _ first second => first.trans second⟩
  exact pairwise_insertionSort _ items

/-- Stability: every group comes out as it went in. -/
theorem filter_sortByKey (group : δ) (items : List α) :
    (sortByKey key items).filter (fun item => key item = group) =
      items.filter fun item => key item = group := by
  have sorted : (items.filter fun item => key item = group).Pairwise
      fun first second => key first ≤ key second := by
    apply pairwise_of_forall_mem_list
    intro first one second two
    simp only [mem_filter, decide_eq_true_eq] at one two
    exact (one.2.trans two.2.symm).le
  have kept := (sublist_insertionSort sorted filter_sublist).filter fun item => key item = group
  simp only [filter_filter, Bool.and_self] at kept
  exact (kept.eq_of_length ((perm_sortByKey key items).filter _).length_eq.symm).symm

/-- Where the key tells the items apart, the order in which they came is forgotten. -/
theorem sortByKey_perm {first second : List α}
    (told : ∀ one ∈ first, ∀ two ∈ first, key one = key two → one = two)
    (same : first.Perm second) : sortByKey key first = sortByKey key second := by
  have permuted := (perm_sortByKey key first).trans (same.trans (perm_sortByKey key second).symm)
  refine permuted.eq_of_pairwise ?_ (pairwise_sortByKey key first) (pairwise_sortByKey key second)
  intro one two oneMem twoMem below above
  have twoFirst := same.mem_iff.mpr ((perm_sortByKey key second).mem_iff.mp twoMem)
  exact told one ((perm_sortByKey key first).mem_iff.mp oneMem) two twoFirst (below.antisymm above)

/-- The last of the items with the largest key. -/
def maxByKey : List α → Option α
  | [] => none
  | item :: items =>
    match maxByKey items with
    | none => some item
    | some best => if key item ≤ key best then some best else some item

variable {key} {best : α} {items : List α}

theorem maxByKey_eq_argmax : maxByKey key items = argmax key items.reverse := by
  induction items with
  | nil => rfl
  | cons _ _ ih =>
    rw [maxByKey, reverse_cons, argmax_concat, ih]
    cases argmax key _ with
    | none => rfl
    | some => simp only [← not_lt, ite_not]

theorem maxByKey_eq_none : maxByKey key items = none ↔ items = [] := by
  rw [maxByKey_eq_argmax, argmax_eq_none, reverse_eq_nil_iff]

theorem mem_of_maxByKey (found : maxByKey key items = some best) : best ∈ items := by
  rw [maxByKey_eq_argmax] at found
  exact mem_reverse.mp (argmax_mem found)

theorem le_of_maxByKey (found : maxByKey key items = some best) :
    ∀ item ∈ items, key item ≤ key best := by
  intro item mem
  rw [maxByKey_eq_argmax] at found
  exact le_of_mem_argmax (mem_reverse.mpr mem) found

end Sorting

/-! ### First occurrences -/

section FirstOccurrences

variable {α : Type*} [DecidableEq α]

/-- The items that were not seen before, each at its first occurrence. -/
def unseen (seen : List α) : List α → List α
  | [] => []
  | item :: items =>
    if item ∈ seen then unseen seen items else item :: unseen (item :: seen) items

variable {seen other items : List α}

/-- What was seen may be taken out first. -/
theorem unseen_eq_eraseDups : unseen seen items = (items.filter (· ∉ seen)).eraseDups := by
  induction items generalizing seen with
  | nil => rfl
  | cons first _ ih =>
    rw [unseen]
    split
    · rename_i known
      rw [ih, filter_cons_of_neg (by simpa using known)]
    · rename_i fresh
      rw [ih, filter_cons_of_pos (by simpa using fresh), eraseDups_cons, filter_filter]
      congr 3
      funext item
      simp [Bool.beq_eq_decide_eq]

theorem mem_unseen {item : α} : item ∈ unseen seen items ↔ item ∈ items ∧ item ∉ seen := by
  rw [unseen_eq_eraseDups, mem_eraseDups, mem_filter, decide_eq_true_eq]

theorem unseen_sublist : (unseen seen items).Sublist items := by
  induction items generalizing seen with
  | nil => exact List.Sublist.refl []
  | cons first _ ih =>
    rw [unseen]
    split
    · exact ih.cons first
    · exact ih.cons_cons first

theorem nodup_unseen : (unseen seen items).Nodup := by
  induction items generalizing seen with
  | nil => exact nodup_nil
  | cons _ _ ih =>
    rw [unseen]
    split
    · exact ih
    · rw [nodup_cons, mem_unseen]
      exact ⟨by simp, ih⟩

/-- Only what occurs in the list matters of what was seen. -/
theorem unseen_congr (same : ∀ item ∈ items, item ∈ seen ↔ item ∈ other) :
    unseen seen items = unseen other items := by
  rw [unseen_eq_eraseDups, unseen_eq_eraseDups]
  congr 1
  apply filter_congr
  intro item mem
  rw [decide_not, decide_not, decide_eq_decide.mpr (same item mem)]

theorem filter_unseen (keep : α → Bool) :
    (unseen seen items).filter keep = unseen seen (items.filter keep) := by
  induction items generalizing seen with
  | nil => rfl
  | cons first _ ih =>
    by_cases known : first ∈ seen
    · rw [unseen, if_pos known, ih]
      by_cases kept : keep first = true
      · rw [filter_cons_of_pos kept, unseen, if_pos known]
      · rw [filter_cons_of_neg kept]
    · rw [unseen, if_neg known]
      by_cases kept : keep first = true
      · rw [filter_cons_of_pos kept, filter_cons_of_pos kept, unseen, if_neg known, ih]
      · rw [filter_cons_of_neg kept, filter_cons_of_neg kept, ih]
        apply unseen_congr
        intro item mem
        have apart : item ≠ first := by
          rintro rfl
          exact kept (mem_filter.mp mem).2
        simp [apart]

theorem unseen_append (front back : List α) :
    unseen seen (front ++ back) = unseen seen front ++ unseen (front ++ seen) back := by
  simp only [unseen_eq_eraseDups, filter_append, eraseDups_append, removeAll, filter_filter]
  congr 3
  funext item
  by_cases known : item ∈ seen <;> simp [known]

/-- Without repetitions only what was seen goes away. -/
theorem unseen_of_nodup (distinct : items.Nodup) : unseen seen items = items.filter (· ∉ seen) := by
  induction items generalizing seen with
  | nil => rfl
  | cons first _ ih =>
    rw [nodup_cons] at distinct
    rw [unseen]
    split
    · rename_i known
      rw [ih distinct.2, filter_cons_of_neg (by simpa using known)]
    · rename_i fresh
      rw [filter_cons_of_pos (by simpa using fresh), ← ih distinct.2]
      congr 1
      apply unseen_congr
      intro item mem
      have apart : item ≠ first := by
        rintro rfl
        exact distinct.1 mem
      simp [apart]

end FirstOccurrences

/-! ### Sorted lists -/

section Sorted

variable {α β δ : Type*} [LinearOrder δ] {key : α → δ} {one two : α}

/-- A sorted list is given by its groups. -/
theorem eq_of_groups {first second : List α}
    (firstSorted : first.Pairwise fun one two => key one ≤ key two)
    (secondSorted : second.Pairwise fun one two => key one ≤ key two)
    (groups : ∀ group, first.filter (fun item => key item = group) =
      second.filter fun item => key item = group) : first = second := by
  have least {head item : α} {tail : List α} (sorted : ∀ item ∈ tail, key head ≤ key item)
      (mem : item ∈ head :: tail) : key head ≤ key item := by
    rcases mem_cons.mp mem with rfl | later
    · exact le_rfl
    · exact sorted item later
  induction first generalizing second with
  | nil =>
    cases second with
    | nil => rfl
    | cons two => simpa using groups (key two)
  | cons one first ih =>
    cases second with
    | nil => simpa using groups (key one)
    | cons two second =>
      rw [pairwise_cons] at firstSorted secondSorted
      have listed (item : α) : item ∈ one :: first ↔ item ∈ two :: second := by
        simpa using congrArg (item ∈ ·) (groups (key item))
      have below := least firstSorted.1 ((listed two).mpr mem_cons_self)
      have above := least secondSorted.1 ((listed one).mp mem_cons_self)
      have heads := groups (key one)
      rw [filter_cons_of_pos (by simp), filter_cons_of_pos (by simpa using above.antisymm below)] at heads
      obtain ⟨rfl, -⟩ := cons.inj heads
      refine congrArg (one :: ·) (ih firstSorted.2 secondSorted.2 fun group => ?_)
      have both := groups group
      rw [filter_cons, filter_cons] at both
      split at both
      · exact (cons.inj both).2
      · exact both

/-- The sort keeps first occurrences first. -/
theorem unseen_sortByKey [DecidableEq α] (seen items : List α) :
    unseen seen (sortByKey key items) = sortByKey key (unseen seen items) := by
  refine eq_of_groups ((pairwise_sortByKey key items).sublist unseen_sublist)
    (pairwise_sortByKey key _) fun group => ?_
  rw [filter_unseen, filter_sortByKey, filter_sortByKey, filter_unseen]

/-- Neighbours with different keys may be exchanged. -/
theorem sortByKey_exchange (told : key one ≠ key two) (before after : List α) :
    sortByKey key (before ++ one :: two :: after) = sortByKey key (before ++ two :: one :: after) := by
  refine eq_of_groups (pairwise_sortByKey key _) (pairwise_sortByKey key _) fun group => ?_
  rw [filter_sortByKey, filter_sortByKey, filter_append, filter_append]
  by_cases isOne : key one = group
  · have notTwo : key two ≠ group := isOne ▸ told.symm
    simp [isOne, notTwo]
  · simp [filter_cons, isOne]

/-- Neighbours with one key stay neighbours. -/
theorem sortByKey_tied (tied : key one = key two) (before after : List α) :
    ∃ front back, sortByKey key (before ++ one :: two :: after) = front ++ one :: two :: back ∧
      sortByKey key (before ++ two :: one :: after) = front ++ two :: one :: back := by
  let place := orderedInsert fun first second => key first ≤ key second
  have both (sorted : List α) : ∃ front back, place one (place two sorted) = front ++ one :: two :: back ∧
      place two (place one sorted) = front ++ two :: one :: back := by
    induction sorted with
    | nil => exact ⟨[], [], by simp [place, tied], by simp [place, tied]⟩
    | cons item sorted ih =>
      by_cases first : key two ≤ key item
      · exact ⟨[], item :: sorted, by simp [place, tied, first], by simp [place, tied, first]⟩
      · obtain ⟨front, back, inOrder, exchanged⟩ := ih
        exact ⟨item :: front, back, by simpa [place, tied, first] using inOrder,
          by simpa [place, tied, first] using exchanged⟩
  have around (item : α) (front back : List α) : ∃ front' back',
      place item (front ++ one :: two :: back) = front' ++ one :: two :: back' ∧
        place item (front ++ two :: one :: back) = front' ++ two :: one :: back' := by
    induction front with
    | nil =>
      by_cases first : key item ≤ key two
      · exact ⟨[item], back, by simp [place, tied, first], by simp [place, first]⟩
      · exact ⟨[], place item back, by simp [place, tied, first], by simp [place, tied, first]⟩
    | cons other front ih =>
      by_cases first : key item ≤ key other
      · exact ⟨item :: other :: front, back, by simp [place, first], by simp [place, first]⟩
      · obtain ⟨front', back', inOrder, exchanged⟩ := ih
        exact ⟨other :: front', back', by simpa [place, first] using inOrder,
          by simpa [place, first] using exchanged⟩
  induction before with
  | nil => exact both (sortByKey key after)
  | cons item _ ih =>
    obtain ⟨front, back, inOrder, exchanged⟩ := ih
    obtain ⟨front', back', inOrder', exchanged'⟩ := around item front back
    exact ⟨front', back', (congrArg (place item) inOrder).trans inOrder',
      (congrArg (place item) exchanged).trans exchanged'⟩

/-- What a sorted list spells does not depend on the order in which items came, if tied ones
spell commuting words. -/
theorem flatMap_sortByKey_perm (key : α → δ) (spell : α → List β) {first second : List α}
    (same : first.Perm second) (commute : ∀ one ∈ first, ∀ two ∈ first, one ≠ two →
      key one = key two → spell one ++ spell two = spell two ++ spell one) (before after : List α) :
    (sortByKey key (before ++ (first ++ after))).flatMap spell =
      (sortByKey key (before ++ (second ++ after))).flatMap spell := by
  induction same generalizing before with
  | nil => rfl
  | cons item _ ih =>
    have rest := ih (fun one oneMem two twoMem => commute one (mem_cons_of_mem _ oneMem) two
      (mem_cons_of_mem _ twoMem)) (before ++ [item])
    simpa using rest
  | swap one two items =>
    by_cases equal : one = two
    · rw [equal]
    by_cases tied : key one = key two
    · obtain ⟨front, back, inOrder, exchanged⟩ := sortByKey_tied tied before (items ++ after)
      have words := commute one (by simp) two (by simp) equal tied
      simp only [cons_append, inOrder, exchanged, flatMap_append, flatMap_cons, ← append_assoc]
      rw [append_assoc _ (spell two), append_assoc _ (spell one), words]
    · rw [cons_append, cons_append, cons_append, cons_append, sortByKey_exchange tied]
  | trans firstSame _ ih ih' =>
    refine (ih commute before).trans (ih' ?_ before)
    intro one oneMem two twoMem
    exact commute one (firstSame.mem_iff.mpr oneMem) two (firstSame.mem_iff.mpr twoMem)

end Sorted

end WeaveCodex.Library.KeySort
