import ClawMessenger.Verified.SortOrder

/-!
# Pairs of a sorted list

Where a list is sorted strictly, one member stands before another exactly if the order
puts it there.  Statements about the places of two rows are statements about
`[a, b] <+ l`, and this module turns them into statements about keys.
-/

namespace ClawMessenger.Verified.SortOrder

open List

variable {α : Type*} {o : SortOrder α}

theorem pair_sublist_iff {l : List α} (h : l.Pairwise o.Before) {a b : α} :
    [a, b].Sublist l ↔ a ∈ l ∧ b ∈ l ∧ o.Before a b := by
  constructor
  · intro hsub
    have hpair := h.sublist hsub
    rw [pairwise_pair] at hpair
    exact ⟨hsub.subset mem_cons_self, hsub.subset (mem_cons_of_mem _ mem_cons_self), hpair⟩
  · rintro ⟨ha, hb, hbefore⟩
    induction l with
    | nil => cases ha
    | cons c rest ih =>
      obtain ⟨hhead, hrest⟩ := pairwise_cons.mp h
      rcases mem_cons.mp ha with rfl | ha'
      · rcases mem_cons.mp hb with rfl | hb'
        · exact absurd hbefore fun h => h.irrefl
        · exact Sublist.cons_cons a (singleton_sublist.mpr hb')
      · rcases mem_cons.mp hb with rfl | hb'
        · exact absurd hbefore (hhead a ha').asymm
        · exact (ih hrest ha' hb').cons c

/-- By a key that no two members share. -/
theorem pair_sublist_sort {κ : Type*} [LinearOrder κ] {key : α → κ} {l : List α} (h : (l.map key).Nodup) {a b : α} :
    [a, b].Sublist (((linear κ).on key).sort l) ↔ a ∈ l ∧ b ∈ l ∧ key a < key b := by
  have hsorted : (((linear κ).on key).sort l).Pairwise ((linear κ).on key).Before := by
    apply sort_sorted h.of_map
    intro c hc d hd hcd hdc
    have hle : key c ≤ key d := of_decide_eq_true hcd
    have hge : key d ≤ key c := of_decide_eq_true hdc
    exact inj_on_of_nodup_map h hc hd (le_antisymm hle hge)
  rw [pair_sublist_iff hsorted, (sort_perm _ l).mem_iff, (sort_perm _ l).mem_iff, before_on, before_linear]

end ClawMessenger.Verified.SortOrder
