import ClawMessenger.Verified.TextSearch

/-!
# Words across a seam

Two texts are put together, and neither holds a word.  A word of the whole then begins
in the part of the first text that may still become one, its `partialEnd`; so for all
that follows the first text may be replaced by this part (`earliest_append_iff`,
`partialEnd_append`).  A unit that is in no word separates the texts on its two sides.
-/

namespace ClawMessenger.Verified.TextSearch

open List

variable {α ι : Type} {word : ι → List α} {items : List ι}

theorem infix_iff_drop {inner text : List α} : inner <:+: text ↔ ∃ i ≤ text.length, inner <+: text.drop i := by
  constructor
  · rintro ⟨before, after, rfl⟩
    refine ⟨before.length, by simp, ?_⟩
    rw [append_assoc, drop_left]
    exact prefix_append _ _
  · rintro ⟨i, _, hstart⟩
    exact hstart.isInfix.trans (drop_suffix i text).isInfix

variable [DecidableEq α]

theorem earliest_eq_none_iff {text : List α} :
    earliest word items text = none ↔ ∀ item ∈ items, ¬ word item <:+: text := by
  constructor
  · intro hnone item hitem hwithin
    obtain ⟨i, hi, hstart⟩ := infix_iff_drop.mp hwithin
    exact indexOf?_eq_none_iff.mp (indexOf?_of_earliest_none hnone hitem) i hi hstart
  · intro habsent
    cases hfound : earliest word items text with
    | none => rfl
    | some found =>
      obtain ⟨item, i⟩ := found
      obtain ⟨hitem, hat, _⟩ := earliest_spec hfound
      obtain ⟨hi, hstart, _⟩ := indexOf?_eq_some_iff.mp hat
      exact absurd (infix_iff_drop.mpr ⟨i, hi, hstart⟩) (habsent item hitem)

theorem earliest_none_of_within {part text : List α} (h : earliest word items text = none) (hpart : part <:+: text) :
    earliest word items part = none := by
  rw [earliest_eq_none_iff] at h ⊢
  intro item hitem hwithin
  exact h item hitem (hwithin.trans hpart)

/-! ## The part that may still become a word -/

theorem heldBack_le_length (text : List α) : heldBack word items text ≤ text.length := by
  apply heldBack_le
  intro item _ n hn
  exact (mem_openLengths.mp hn).2.2.1

variable (word items) in
/-- The longest end of a text that may still become a word. -/
def partialEnd (text : List α) : List α := text.drop (text.length - heldBack word items text)

theorem length_partialEnd (text : List α) : (partialEnd word items text).length = heldBack word items text := by
  have hle : heldBack word items text ≤ text.length := heldBack_le_length text
  unfold partialEnd
  rw [length_drop]
  omega

theorem partialEnd_suffix (text : List α) : partialEnd word items text <:+ text := drop_suffix _ _

theorem partialEnd_eq_nil_iff {text : List α} : partialEnd word items text = [] ↔ heldBack word items text = 0 := by
  rw [← length_eq_zero_iff, length_partialEnd]

section Seam

variable {text : List α}

theorem partialEnd_append_suffix (more : List α) : partialEnd word items text ++ more <:+ text ++ more := by
  obtain ⟨before, hbefore⟩ : partialEnd word items text <:+ text := partialEnd_suffix text
  refine ⟨before, ?_⟩
  rw [← append_assoc, hbefore]

/-- A word of the whole begins in the part that was left open. -/
theorem earliest_append_iff (h : earliest word items text = none) (more : List α) :
    earliest word items (text ++ more) = none ↔ earliest word items (partialEnd word items text ++ more) = none := by
  constructor
  · intro hnone
    exact earliest_none_of_within hnone (partialEnd_append_suffix more).isInfix
  · intro hnone
    cases hfound : earliest word items (text ++ more) with
    | none => rfl
    | some found =>
      obtain ⟨item, i⟩ := found
      have hstart : text.length - heldBack word items text ≤ i := le_of_earliest_append h hfound
      obtain ⟨hitem, hat, _⟩ := earliest_spec hfound
      obtain ⟨_, hword, _⟩ := indexOf?_eq_some_iff.mp hat
      have hopen : (text ++ more).drop i <:+ partialEnd word items text ++ more := by
        have hwhole : (text ++ more).drop (text.length - heldBack word items text) =
            partialEnd word items text ++ more := drop_append_of_le_length (Nat.sub_le _ _)
        rw [← hwhole, ← Nat.add_sub_of_le hstart, ← drop_drop]
        exact drop_suffix _ _
      exact absurd (hword.isInfix.trans hopen.isInfix) (earliest_eq_none_iff.mp hnone item hitem)

theorem heldBack_partialEnd_append (more : List α) :
    heldBack word items (partialEnd word items text ++ more) = heldBack word items (text ++ more) := by
  apply le_antisymm
  · apply heldBack_le
    intro item hitem n hn
    obtain ⟨hpos, hlt, hlength, hsuffix⟩ := mem_openLengths.mp hn
    have hsub : partialEnd word items text ++ more <:+ text ++ more := partialEnd_append_suffix more
    exact le_heldBack hitem (mem_openLengths.mpr ⟨hpos, hlt, hlength.trans hsub.length_le, hsuffix.trans hsub⟩)
  · apply heldBack_le
    intro item hitem n hn
    have hbound : n ≤ heldBack word items text + more.length := (le_heldBack hitem hn).trans (heldBack_append more)
    obtain ⟨hpos, hlt, hlength, hsuffix⟩ := mem_openLengths.mp hn
    have hshort : n ≤ (partialEnd word items text ++ more).length := by
      rw [length_append, length_partialEnd]
      exact hbound
    refine le_heldBack hitem (mem_openLengths.mpr ⟨hpos, hlt, hshort, ?_⟩)
    apply suffix_of_suffix_length_le hsuffix (partialEnd_append_suffix more)
    rw [length_take]
    omega

theorem partialEnd_append (more : List α) :
    partialEnd word items (text ++ more) = partialEnd word items (partialEnd word items text ++ more) := by
  have hshort : partialEnd word items (partialEnd word items text ++ more) <:+ text ++ more :=
    (partialEnd_suffix _).trans (partialEnd_append_suffix more)
  apply IsSuffix.eq_of_length
  · apply suffix_of_suffix_length_le (partialEnd_suffix _) hshort
    rw [length_partialEnd, length_partialEnd, heldBack_partialEnd_append]
  · rw [length_partialEnd, length_partialEnd, heldBack_partialEnd_append]

end Seam

/-! ## Separators -/

section Separator

variable {unit : α} {before after : List α}

omit [DecidableEq α] in
theorem infix_of_notMem {inner : List α} (hunit : unit ∉ inner) (h : inner <:+: before ++ unit :: after) :
    inner <:+: before ∨ inner <:+: after := by
  obtain ⟨i, hi, hstart⟩ := infix_iff_drop.mp h
  by_cases hright : before.length < i
  · right
    have hdrop : (before ++ unit :: after).drop i = after.drop (i - before.length - 1) := by
      rw [drop_append, drop_eq_nil_of_le (Nat.le_of_lt hright), nil_append]
      obtain ⟨k, hk⟩ := Nat.exists_eq_add_of_lt hright
      rw [show i - before.length = k + 1 by omega, drop_succ_cons]
      rfl
    rw [hdrop] at hstart
    exact hstart.isInfix.trans (drop_suffix _ _).isInfix
  · left
    have hle : i ≤ before.length := Nat.le_of_not_lt hright
    rw [drop_append_of_le_length hle] at hstart
    have hinside : inner <+: before.drop i := by
      by_cases hlength : inner.length ≤ (before.drop i).length
      · exact prefix_of_prefix_length_le hstart (prefix_append _ _) hlength
      · have hlong : before.drop i ++ [unit] <+: inner := by
          apply prefix_of_prefix_length_le _ hstart
          · rw [length_append, length_singleton]
            omega
          · rw [show before.drop i ++ unit :: after = (before.drop i ++ [unit]) ++ after by simp]
            exact prefix_append _ _
        exact absurd (hlong.subset (mem_append_right _ mem_cons_self)) hunit
    exact hinside.isInfix.trans (drop_suffix _ _).isInfix

/-- A unit that is in no word parts the text. -/
theorem earliest_separated (hunit : ∀ item ∈ items, unit ∉ word item) :
    earliest word items (before ++ unit :: after) = none ↔
      earliest word items before = none ∧ earliest word items after = none := by
  constructor
  · intro hnone
    refine ⟨earliest_none_of_within hnone (prefix_append _ _).isInfix, earliest_none_of_within hnone ?_⟩
    exact (suffix_cons unit after).isInfix.trans (suffix_append _ _).isInfix
  · rintro ⟨hbefore, hafter⟩
    rw [earliest_eq_none_iff] at hbefore hafter ⊢
    intro item hitem hwithin
    rcases infix_of_notMem (hunit item hitem) hwithin with hleft | hright
    · exact hbefore item hitem hleft
    · exact hafter item hitem hright

theorem heldBack_separated (hunit : ∀ item ∈ items, unit ∉ word item) :
    heldBack word items (before ++ unit :: after) ≤ heldBack word items after := by
  apply heldBack_le
  intro item hitem n hn
  obtain ⟨hpos, hlt, _, hsuffix⟩ := mem_openLengths.mp hn
  have hafter : (word item).take n <:+ after := by
    by_cases hlength : ((word item).take n).length ≤ after.length
    · exact suffix_of_suffix_length_le hsuffix ((suffix_cons unit after).trans (suffix_append _ _)) hlength
    · have hlong : unit :: after <:+ (word item).take n := by
        apply suffix_of_suffix_length_le (suffix_append _ _) hsuffix
        rw [length_cons]
        omega
      exact absurd (mem_of_mem_take (hlong.subset mem_cons_self)) (hunit item hitem)
  have hfits : n ≤ after.length := by
    have hle := hafter.length_le
    rw [length_take] at hle
    omega
  exact le_heldBack hitem (mem_openLengths.mpr ⟨hpos, hlt, hfits, hafter⟩)

end Separator

end ClawMessenger.Verified.TextSearch
