import Mathlib

/-!
# Searching a text that is still growing

A reader that looks for one of several words in a text arriving piece by piece
has to know which of its findings later pieces can change.  `indexOf?` is the
first place of one word, `earliest` the first place of any of several, and
`heldBack` how much of the end of the text could still turn into a word.

A word that has been found stays where it is as long as no word is a factor of
another one; and a word found only later does not start before the part that
`heldBack` held back.

## Main results

* `earliest_append` — what was found first stays found first.
* `le_of_earliest_append` — a word that appears with later text starts in the
  part that was held back.
* `heldBack_append` — the end of the released part never moves backwards.
-/

namespace ClawMessenger.Verified.TextSearch

open List

variable {α ι : Type}

/-! ## One word -/

section Word

variable [DecidableEq α]

/-- The first index at which `word` starts in `text`. -/
def indexOf? (word text : List α) : Option Nat :=
  text.tails.findIdx? fun rest => word.isPrefixOf rest

variable {word text : List α} {i : Nat}

theorem indexOf?_eq_some_iff :
    indexOf? word text = some i ↔
      i ≤ text.length ∧ word <+: text.drop i ∧ ∀ j < i, ¬ word <+: text.drop j := by
  rw [indexOf?, findIdx?_eq_some_iff_getElem]
  simp only [length_tails, getElem_tails, isPrefixOf_iff_prefix]
  constructor
  · intro ⟨hi, hword, hfirst⟩
    exact ⟨Nat.lt_succ_iff.mp hi, hword, fun j hj => hfirst j hj⟩
  · intro ⟨hi, hword, hfirst⟩
    exact ⟨Nat.lt_succ_of_le hi, hword, fun j hj => hfirst j hj⟩

theorem indexOf?_eq_none_iff :
    indexOf? word text = none ↔ ∀ i ≤ text.length, ¬ word <+: text.drop i := by
  rw [indexOf?, findIdx?_eq_none_iff]
  constructor
  · intro h i hi hword
    have hfalse := h (text.drop i) ((mem_tails _ _).mpr (drop_suffix i text))
    rw [ isPrefixOf_iff_prefix.mpr hword] at hfalse
    cases hfalse
  · intro h rest hrest
    obtain ⟨before, rfl⟩ := (mem_tails _ _).mp hrest
    have hnot := h before.length (by simp)
    rw [drop_left] at hnot
    rw [← Bool.not_eq_true, isPrefixOf_iff_prefix]
    exact hnot

/-- A word that starts somewhere has a first place, no later than there. -/
theorem exists_indexOf?_le (hi : i ≤ text.length) (hword : word <+: text.drop i) :
    ∃ j ≤ i, indexOf? word text = some j := by
  cases h : indexOf? word text with
  | none => exact absurd hword (indexOf?_eq_none_iff.mp h i hi)
  | some j =>
    refine ⟨j, ?_, rfl⟩
    by_contra hlt
    exact (indexOf?_eq_some_iff.mp h).2.2 i (not_le.mp hlt) hword

/-- A word found in a text lies inside it. -/
theorem indexOf?_add_length_le (h : indexOf? word text = some i) :
    i + word.length ≤ text.length := by
  obtain ⟨hi, hword, _⟩ := indexOf?_eq_some_iff.mp h
  have hlen := hword.length_le
  rw [length_drop] at hlen
  omega

end Word

variable {word text : List α} {i : Nat}

/-- What starts in the text still starts there when more text follows. -/
theorem prefix_drop_append (hword : word <+: text.drop i) (more : List α) :
    word <+: (text ++ more).drop i := by
  rw [drop_append]
  exact hword.trans (prefix_append _ _)

variable {more : List α}

/-- What starts in the longer text and ends inside the shorter one starts in
the shorter one. -/
theorem prefix_drop_of_append (hword : word <+: (text ++ more).drop i)
    (hfit : i + word.length ≤ text.length) :
    word <+: text.drop i := by
  rw [drop_append_of_le_length (by omega)] at hword
  apply prefix_of_prefix_length_le hword (prefix_append _ _)
  rw [length_drop]
  omega

/-- What starts in the shorter text and ends only in the longer one begins with
the end of the shorter one. -/
theorem drop_prefix_of_append (hi : i ≤ text.length) (hword : word <+: (text ++ more).drop i)
    (hlong : text.length ≤ i + word.length) :
    text.drop i <+: word := by
  rw [drop_append_of_le_length hi] at hword
  apply prefix_of_prefix_length_le (prefix_append _ _) hword
  rw [length_drop]
  omega

/-- Of two words in one text, the one that lies between the ends of the other
is a factor of it. -/
theorem infix_of_between {inner outer : List α} {j : Nat} (hij : j ≤ i)
    (hinner : inner <+: text.drop i) (houter : outer <+: text.drop j)
    (hend : i + inner.length ≤ j + outer.length) : inner <:+: outer := by
  have hshift : text.drop i = (text.drop j).drop (i - j) := by
    rw [drop_drop]
    congr 1
    omega
  rw [hshift] at hinner
  obtain ⟨after, hafter⟩ := houter
  rw [← hafter] at hinner
  have hsub : inner <+: outer.drop (i - j) := prefix_drop_of_append hinner (by omega)
  exact hsub.isInfix.trans (drop_suffix _ _).isInfix

/-! ## Several words -/

variable [DecidableEq α]

/-- The earlier of two findings; the first one wins a tie. -/
def sooner (selected : Option (ι × Nat)) (item : ι) : Option Nat → Option (ι × Nat)
  | none => selected
  | some i =>
    match selected with
    | none => some (item, i)
    | some (other, j) => if i < j then some (item, i) else some (other, j)

/-- The item whose word starts first, with its index. -/
def earliest (word : ι → List α) (items : List ι) (text : List α) : Option (ι × Nat) :=
  items.foldl (fun selected item => sooner selected item (indexOf? (word item) text)) none

section Earliest

variable {word : ι → List α} {items : List ι} {text : List α}

/-- What the selection holds once `items` have been looked at: nothing if none
of them occurs, else one of them that occurs first. -/
private def Selected (word : ι → List α) (items : List ι) (text : List α) :
    Option (ι × Nat) → Prop
  | none => ∀ item ∈ items, indexOf? (word item) text = none
  | some (item, i) => item ∈ items ∧ indexOf? (word item) text = some i ∧
      ∀ other ∈ items, ∀ j, indexOf? (word other) text = some j → i ≤ j

private theorem selected_sooner {selected : Option (ι × Nat)} (item : ι)
    (h : Selected word items text selected) :
    Selected word (items ++ [item]) text
      (sooner selected item (indexOf? (word item) text)) := by
  cases hindex : indexOf? (word item) text with
  | none =>
    cases selected with
    | none =>
      intro other hother
      rcases mem_append.mp hother with hold | hnew
      · exact h other hold
      · rw [mem_singleton.mp hnew, hindex]
    | some found =>
      obtain ⟨hmem, hat, hfirst⟩ := h
      refine ⟨mem_append_left _ hmem, hat, ?_⟩
      intro other hother j hj
      rcases mem_append.mp hother with hold | hnew
      · exact hfirst other hold j hj
      · rw [mem_singleton.mp hnew, hindex] at hj
        cases hj
  | some i =>
    have hnew : item ∈ items ++ [item] := mem_append_right _ mem_cons_self
    cases selected with
    | none =>
      refine ⟨hnew, hindex, ?_⟩
      intro other hother j hj
      rcases mem_append.mp hother with hold | hlast
      · rw [h other hold] at hj
        cases hj
      · rw [mem_singleton.mp hlast, hindex] at hj
        exact le_of_eq (Option.some.inj hj)
    | some found =>
      obtain ⟨hmem, hat, hfirst⟩ := h
      by_cases hlt : i < found.2
      · rw [sooner, if_pos hlt]
        refine ⟨hnew, hindex, ?_⟩
        intro other hother j hj
        rcases mem_append.mp hother with hold | hlast
        · exact (le_of_lt hlt).trans (hfirst other hold j hj)
        · rw [mem_singleton.mp hlast, hindex] at hj
          exact le_of_eq (Option.some.inj hj)
      · rw [sooner, if_neg hlt]
        refine ⟨mem_append_left _ hmem, hat, ?_⟩
        intro other hother j hj
        rcases mem_append.mp hother with hold | hlast
        · exact hfirst other hold j hj
        · rw [mem_singleton.mp hlast, hindex] at hj
          have hij := Option.some.inj hj
          omega

private theorem selected_earliest : Selected word items text (earliest word items text) := by
  induction items using reverseRecOn with
  | nil =>
    intro item hitem
    cases hitem
  | append_singleton items item ih =>
    rw [earliest, foldl_append]
    exact selected_sooner item ih

variable {item : ι}

theorem indexOf?_of_earliest_none (h : earliest word items text = none) (hitem : item ∈ items) :
    indexOf? (word item) text = none := by
  have hselected : Selected word items text (earliest word items text) := selected_earliest
  rw [h] at hselected
  exact hselected item hitem

/-- What `earliest` finds is one of the items, at the first place of its word,
and no word starts before it. -/
theorem earliest_spec {i : Nat} (h : earliest word items text = some (item, i)) :
    item ∈ items ∧ indexOf? (word item) text = some i ∧
      ∀ other ∈ items, ∀ j, indexOf? (word other) text = some j → i ≤ j := by
  have hselected : Selected word items text (earliest word items text) := selected_earliest
  rw [h] at hselected
  exact hselected

/-- No word is a factor of another item's word. -/
def FactorFree (word : ι → List α) (items : List ι) : Prop :=
  ∀ item ∈ items, ∀ other ∈ items, word item <:+: word other → item = other

/-- What was found first stays found first when more text follows. -/
theorem earliest_append (hfree : FactorFree word items) {i : Nat}
    (h : earliest word items text = some (item, i)) (more : List α) :
    earliest word items (text ++ more) = some (item, i) := by
  obtain ⟨hmem, hat, hfirst⟩ := earliest_spec h
  obtain ⟨hi, hword, _⟩ := indexOf?_eq_some_iff.mp hat
  have hfit := indexOf?_add_length_le hat
  have hword' := prefix_drop_append hword more
  have hi' : i ≤ (text ++ more).length := by
    rw [length_append]
    omega
  cases hlater : earliest word items (text ++ more) with
  | none =>
    exact absurd hword' (indexOf?_eq_none_iff.mp (indexOf?_of_earliest_none hlater hmem) i hi')
  | some found =>
    obtain ⟨other, j⟩ := found
    obtain ⟨hother, hatj, hfirstj⟩ := earliest_spec hlater
    obtain ⟨_, hwordj, _⟩ := indexOf?_eq_some_iff.mp hatj
    obtain ⟨k, hk, hindex⟩ := exists_indexOf?_le hi' hword'
    have hji : j ≤ i := (hfirstj item hmem k hindex).trans hk
    by_cases hinside : j + (word other).length ≤ text.length
    · -- the later finding was there already, so it is no earlier
      have hold := prefix_drop_of_append hwordj hinside
      obtain ⟨m, hm, hindexm⟩ := exists_indexOf?_le (by omega) hold
      have hij := (hfirst other hother m hindexm).trans hm
      have heq : i = j := le_antisymm hij hji
      rw [← heq] at hold
      rcases le_total (word item).length (word other).length with hle | hle
      · have hfactor := infix_of_between le_rfl hword hold (by omega)
        rw [hfree item hmem other hother hfactor, heq]
      · have hfactor := infix_of_between le_rfl hold hword (by omega)
        rw [hfree other hother item hmem hfactor, heq]
    · -- a word that only now got complete would contain the first one
      have hfactor := infix_of_between hji hword' hwordj (by omega)
      have hsame := hfree item hmem other hother hfactor
      rw [← hsame] at hinside
      omega

end Earliest

/-! ## What may still become a word -/

/-- The lengths at which a proper, nonempty beginning of `word` ends `text`. -/
def openLengths (word text : List α) : List Nat :=
  (List.range' 1 (word.length - 1)).filter fun length =>
    length ≤ text.length && (word.take length).isSuffixOf text

theorem mem_openLengths {n : Nat} :
    n ∈ openLengths word text ↔
      1 ≤ n ∧ n < word.length ∧ n ≤ text.length ∧ word.take n <:+ text := by
  rw [openLengths, mem_filter, mem_range'_1]
  simp only [Bool.and_eq_true, decide_eq_true_eq, isSuffixOf_iff_suffix]
  constructor
  · intro ⟨⟨hpos, hlt⟩, hle, hsuffix⟩
    exact ⟨hpos, by omega, hle, hsuffix⟩
  · intro ⟨hpos, hlt, hle, hsuffix⟩
    exact ⟨⟨hpos, by omega⟩, hle, hsuffix⟩

/-- The longest end of `text` that may still become one of the words. -/
def heldBack (word : ι → List α) (items : List ι) (text : List α) : Nat :=
  (items.flatMap fun item => openLengths (word item) text).foldr max 0

section HeldBack

variable {word : ι → List α} {items : List ι} {text : List α}

theorem le_heldBack {item : ι} (hitem : item ∈ items) {n : Nat}
    (hn : n ∈ openLengths (word item) text) : n ≤ heldBack word items text :=
  le_max_of_le (mem_flatMap.mpr ⟨item, hitem, hn⟩) le_rfl

theorem heldBack_le {bound : Nat}
    (h : ∀ item ∈ items, ∀ n ∈ openLengths (word item) text, n ≤ bound) :
    heldBack word items text ≤ bound := by
  apply max_le_of_forall_le
  intro n hn
  obtain ⟨item, hitem, hmem⟩ := mem_flatMap.mp hn
  exact h item hitem n hmem

/-- A word that appears only with the text that follows starts in the part
that was held back. -/
theorem le_of_earliest_append (hnone : earliest word items text = none) {more : List α}
    {item : ι} {i : Nat} (hsome : earliest word items (text ++ more) = some (item, i)) :
    text.length - heldBack word items text ≤ i := by
  obtain ⟨hitem, hat, _⟩ := earliest_spec hsome
  obtain ⟨_, hword, _⟩ := indexOf?_eq_some_iff.mp hat
  by_cases hi : text.length ≤ i
  · omega
  · have habsent := indexOf?_eq_none_iff.mp (indexOf?_of_earliest_none hnone hitem) i (by omega)
    have hlong : text.length < i + (word item).length := by
      by_contra hfit
      exact habsent (prefix_drop_of_append hword (by omega))
    have hbegin := drop_prefix_of_append (by omega) hword (by omega)
    have hlength : (text.drop i).length = text.length - i := length_drop
    have htake : (word item).take (text.length - i) = text.drop i := by
      rw [← hlength]
      exact (prefix_iff_eq_take.mp hbegin).symm
    have hopen : text.length - i ∈ openLengths (word item) text := by
      rw [mem_openLengths, htake]
      exact ⟨by omega, by omega, by omega, drop_suffix _ _⟩
    have hle := le_heldBack hitem hopen
    omega

/-- The end of the released part never moves backwards. -/
theorem heldBack_append (more : List α) :
    heldBack word items (text ++ more) ≤ heldBack word items text + more.length := by
  apply heldBack_le
  intro item hitem n hn
  obtain ⟨_, hlt, hle, hsuffix⟩ := mem_openLengths.mp hn
  rw [length_append] at hle
  by_cases hshort : n ≤ more.length
  · omega
  · -- the part of the open beginning that lies in `text` was open there too
    have hopen : n - more.length ∈ openLengths (word item) text := by
      rw [mem_openLengths]
      refine ⟨by omega, by omega, by omega, ?_⟩
      obtain ⟨before, hbefore⟩ := hsuffix
      have hlength : (word item |>.take n).length = n := by
        rw [length_take]
        omega
      have hsplit := congrArg (fun s => s.take text.length) hbefore
      simp only [take_left] at hsplit
      rw [take_append, take_of_length_le (by
        have htotal := congrArg length hbefore
        rw [length_append, length_append, hlength] at htotal
        omega), take_take] at hsplit
      have hmin : min (text.length - before.length) n = n - more.length := by
        have htotal := congrArg length hbefore
        rw [length_append, length_append, hlength] at htotal
        omega
      rw [hmin] at hsplit
      exact ⟨before, hsplit⟩
    have hle' := le_heldBack hitem hopen
    omega

end HeldBack

end ClawMessenger.Verified.TextSearch
