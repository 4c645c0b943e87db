import Mathlib

/-!
# Sorting by a comparator

A comparator answers with a number: at most zero when the first item may stand
before the second.  A language that sorts by a comparator promises something
only where the comparator is consistent, which one that mixes two orders is on
some lists and not on others.  `Sorting` is what is promised: the result is a
permutation, and of items the comparator orders it is in order, items that
already stand in order keeping it.  Sorting by insertion is an instance that
can be evaluated.
-/

namespace ClawMessenger.Verified

open List

variable {α : Type*}

/-- The comparator orders the items: any two of them one way or the other, and
without a cycle. -/
structure Consistent (cmp : α → α → Int) (items : List α) : Prop where
  total : ∀ a ∈ items, ∀ b ∈ items, cmp a b ≤ 0 ∨ cmp b a ≤ 0
  trans : ∀ a ∈ items, ∀ b ∈ items, ∀ c ∈ items, cmp a b ≤ 0 → cmp b c ≤ 0 → cmp a c ≤ 0

variable {cmp : α → α → Int} {items : List α}

theorem Consistent.mono {fewer : List α} (h : Consistent cmp items)
    (hsub : ∀ a ∈ fewer, a ∈ items) : Consistent cmp fewer where
  total := fun a ha b hb => h.total a (hsub a ha) b (hsub b hb)
  trans := fun a ha b hb c hc => h.trans a (hsub a ha) b (hsub b hb) c (hsub c hc)

instance [DecidableEq α] (cmp : α → α → Int) (items : List α) :
    Decidable (Consistent cmp items) :=
  decidable_of_iff
    ((∀ a ∈ items, ∀ b ∈ items, cmp a b ≤ 0 ∨ cmp b a ≤ 0) ∧
      ∀ a ∈ items, ∀ b ∈ items, ∀ c ∈ items, cmp a b ≤ 0 → cmp b c ≤ 0 → cmp a c ≤ 0)
    ⟨fun h => ⟨h.1, h.2⟩, fun h => ⟨h.total, h.trans⟩⟩

/-- A stable sort by a comparator. -/
structure Sorting (α : Type*) where
  sort : (α → α → Int) → List α → List α
  perm : ∀ cmp items, (sort cmp items).Perm items
  sorted : ∀ cmp items, Consistent cmp items →
    (sort cmp items).Pairwise fun a b => cmp a b ≤ 0
  stable : ∀ cmp items, Consistent cmp items → ∀ kept, List.Sublist kept items →
    (kept.Pairwise fun a b => cmp a b ≤ 0) → List.Sublist kept (sort cmp items)

namespace Sorting

theorem mem_sort (sorting : Sorting α) {a : α} :
    a ∈ sorting.sort cmp items ↔ a ∈ items :=
  (sorting.perm cmp items).mem_iff

/-- A test that picks items standing in order picks them in the same order from
the sorted list; one item picked is in order by itself. -/
theorem filter_sort (sorting : Sorting α) {p : α → Bool}
    (h : 2 ≤ (items.filter p).length → Consistent cmp items ∧ (items.filter p).Pairwise fun a b => cmp a b ≤ 0) :
    (sorting.sort cmp items).filter p = items.filter p := by
  have hperm : ((sorting.sort cmp items).filter p).Perm (items.filter p) :=
    (sorting.perm cmp items).filter p
  by_cases hmany : 2 ≤ (items.filter p).length
  · obtain ⟨hconsistent, hordered⟩ := h hmany
    have hkept : Sublist ((items.filter p).filter p) ((sorting.sort cmp items).filter p) :=
      (sorting.stable cmp items hconsistent _ filter_sublist hordered).filter p
    rw [filter_filter] at hkept
    simp only [Bool.and_self] at hkept
    exact (hkept.eq_of_length hperm.length_eq.symm).symm
  · cases hpicked : items.filter p with
    | nil =>
      rw [hpicked] at hperm
      exact hperm.eq_nil
    | cons a rest =>
      have hrest : rest = [] := by
        apply eq_nil_of_length_eq_zero
        simp only [hpicked, length_cons] at hmany
        omega
      rw [hpicked, hrest] at hperm
      rw [hrest]
      exact hperm.eq_singleton

/-- Sorting by insertion. -/
def insertion : Sorting α where
  sort cmp items := items.insertionSort fun a b => cmp a b ≤ 0
  perm cmp items := List.perm_insertionSort _ items
  sorted cmp items h := by
    -- The library asks for a total order on all of the type: sort the members instead.
    let onMembers : {a // a ∈ items} → {a // a ∈ items} → Prop := fun a b => cmp a.1 b.1 ≤ 0
    have htotal : Std.Total onMembers := ⟨fun a b => h.total a.1 a.2 b.1 b.2⟩
    have htrans : IsTrans _ onMembers := ⟨fun a b c => h.trans a.1 a.2 b.1 b.2 c.1 c.2⟩
    have hsorted := List.pairwise_insertionSort onMembers items.attach
    have hmap : (items.attach.insertionSort onMembers).map Subtype.val =
        items.insertionSort fun a b => cmp a b ≤ 0 := by
      rw [List.map_insertionSort (s := fun a b => cmp a b ≤ 0) (f := Subtype.val) _ _
        (fun _ _ _ _ => Iff.rfl), List.attach_map_subtype_val]
    rw [← hmap, List.pairwise_map]
    exact hsorted
  stable _ _ _ _ hkept hordered := List.sublist_insertionSort hordered hkept

end Sorting

end ClawMessenger.Verified
