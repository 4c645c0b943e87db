import Mathlib

/-!
# Remembering the last few ids

A window keeps the last `capacity` ids it has let through, and refuses an id it
still keeps.  The refused ones do not refresh their place, so an id is
remembered for `capacity` further ids and no longer.  Where fewer than
`capacity` others come between any two arrivals of an id, it is let through
once.
-/

namespace ClawMessenger.Verified.RecentIds

open List

variable {α : Type*} [DecidableEq α]

/-- Whether the id is new, and the window after it. -/
def mark (capacity : Nat) (seen : List α) (id : α) : Bool × List α :=
  if id ∈ seen then (false, seen)
  else
    let seen := seen ++ [id]
    (true, if seen.length > capacity then seen.tail else seen)

/-- The window and everything let through so far, after one more arrival. -/
def arrive (capacity : Nat) (s : List α × List α) (id : α) : List α × List α :=
  let marked := mark capacity s.1 id
  (marked.2, if marked.1 then s.2 ++ [id] else s.2)

def arrivals (capacity : Nat) (ids : List α) : List α × List α :=
  ids.foldl (arrive capacity) ([], [])

/-- Fewer than `capacity` other ids come between two arrivals of the id. -/
def Windowed (capacity : Nat) (ids : List α) (id : α) : Prop :=
  ∀ before between after, ids = before ++ id :: (between ++ id :: after) →
    (between.toFinset.erase id).card < capacity

variable {capacity : Nat} {ids : List α} {id : α}

theorem Windowed.of_append {more : List α} (h : Windowed capacity (ids ++ more) id) :
    Windowed capacity ids id := by
  intro before between after heq
  apply h before between (after ++ more)
  rw [heq]
  simp

theorem arrivals_concat (ids : List α) (id : α) :
    arrivals capacity (ids ++ [id]) = arrive capacity (arrivals capacity ids) id := by
  rw [arrivals, foldl_append]
  rfl

theorem accepted_sublist (capacity : Nat) (ids : List α) : (arrivals capacity ids).2.Sublist ids := by
  induction ids using reverseRecOn with
  | nil => exact Sublist.refl _
  | append_singleton ids id ih =>
    rw [arrivals_concat, arrive]
    by_cases hnew : (mark capacity (arrivals capacity ids).1 id).1 = true
    · rw [if_pos hnew]
      exact ih.append (Sublist.refl _)
    · rw [if_neg hnew]
      exact ih.trans (sublist_append_left _ _)

/-- The window is the end of what was let through, short only at the start. -/
theorem window_spec (capacity : Nat) (ids : List α) :
    ∃ forgotten, (arrivals capacity ids).2 = forgotten ++ (arrivals capacity ids).1 ∧
      (forgotten = [] ∨ (arrivals capacity ids).1.length = capacity) ∧
        (arrivals capacity ids).1.length ≤ capacity := by
  induction ids using reverseRecOn with
  | nil => exact ⟨[], rfl, .inl rfl, Nat.zero_le _⟩
  | append_singleton ids id ih =>
    rw [arrivals_concat, arrive]
    obtain ⟨forgotten, haccepted, hshort, hle⟩ := ih
    unfold mark
    by_cases hmem : id ∈ (arrivals capacity ids).1
    · rw [if_pos hmem]
      exact ⟨forgotten, haccepted, hshort, hle⟩
    · rw [if_neg hmem]
      dsimp only
      rw [if_pos rfl, haccepted, append_assoc]
      by_cases hfull : ((arrivals capacity ids).1 ++ [id]).length > capacity
      · rw [if_pos hfull]
        rw [length_append, length_singleton] at hfull
        have hlength : ((arrivals capacity ids).1 ++ [id]).tail.length = capacity := by
          rw [length_tail, length_append, length_singleton]
          omega
        refine ⟨forgotten ++ [((arrivals capacity ids).1 ++ [id]).head (by simp)], ?_,
          .inr hlength, Nat.le_of_eq hlength⟩
        rw [append_assoc, singleton_append, cons_head_tail]
      · rw [if_neg hfull]
        rw [length_append, length_singleton] at hfull
        refine ⟨forgotten, rfl, ?_, ?_⟩
        · left
          rcases hshort with hnil | hlength
          · exact hnil
          · omega
        · rw [length_append, length_singleton]
          omega

/-- The window holds no id twice. -/
theorem window_nodup (capacity : Nat) (ids : List α) : (arrivals capacity ids).1.Nodup := by
  induction ids using reverseRecOn with
  | nil => exact nodup_nil
  | append_singleton ids id ih =>
    rw [arrivals_concat, arrive]
    unfold mark
    by_cases hmem : id ∈ (arrivals capacity ids).1
    · rw [if_pos hmem]
      exact ih
    · rw [if_neg hmem]
      have hnodup : ((arrivals capacity ids).1 ++ [id]).Nodup := by
        rw [nodup_append]
        refine ⟨ih, nodup_singleton _, ?_⟩
        intro a ha b hb
        rw [mem_singleton] at hb
        rintro rfl
        subst hb
        exact hmem ha
      dsimp only
      by_cases hfull : ((arrivals capacity ids).1 ++ [id]).length > capacity
      · rw [if_pos hfull]
        exact hnodup.sublist (tail_sublist _)
      · rw [if_neg hfull]
        exact hnodup

/-- An id that was let through and is forgotten has seen `capacity` others since. -/
theorem not_forgotten (hwindowed : Windowed capacity (ids ++ [id]) id)
    (hmem : id ∈ (arrivals capacity ids).2) : id ∈ (arrivals capacity ids).1 := by
  obtain ⟨forgotten, haccepted, hshort, _⟩ := window_spec capacity ids
  by_contra hforgotten
  have hold : id ∈ forgotten := by
    rw [haccepted, mem_append] at hmem
    exact hmem.resolve_right hforgotten
  have hlength : (arrivals capacity ids).1.length = capacity := by
    rcases hshort with hnil | hlength
    · rw [hnil] at hold
      cases hold
    · exact hlength
  obtain ⟨first, last, rfl⟩ := append_of_mem hold
  -- The window, which came after `id`, came between its two arrivals.
  have hsub := accepted_sublist capacity ids
  rw [haccepted, append_assoc, cons_append] at hsub
  obtain ⟨start, rest, hids, _, hrest⟩ := append_sublist_iff.mp hsub
  obtain ⟨upTo, between, hsplit, hin, hafter⟩ := cons_sublist_iff.mp hrest
  obtain ⟨head, tail, rfl⟩ := append_of_mem hin
  have hcard := hwindowed (start ++ head) (tail ++ between) [] (by rw [hids, hsplit]; simp)
  have hle : (arrivals capacity ids).1.toFinset.card ≤
      ((tail ++ between).toFinset.erase id).card := by
    apply Finset.card_le_card
    intro other hother
    rw [mem_toFinset] at hother
    rw [Finset.mem_erase, mem_toFinset]
    constructor
    · rintro rfl
      exact hforgotten hother
    · exact mem_append_right _ (hafter.subset (mem_append_right _ hother))
  rw [toFinset_card_of_nodup (window_nodup capacity ids), hlength] at hle
  omega

/-- The id is let through once. -/
theorem accepted_once (h : Windowed capacity ids id) : (arrivals capacity ids).2.count id ≤ 1 := by
  induction ids using reverseRecOn with
  | nil => exact Nat.zero_le _
  | append_singleton ids last ih =>
    have hbefore := ih h.of_append
    rw [arrivals_concat, arrive]
    unfold mark
    by_cases hmem : last ∈ (arrivals capacity ids).1
    · rw [if_pos hmem]
      exact hbefore
    · rw [if_neg hmem]
      rw [if_pos rfl, count_append, count_singleton]
      by_cases hlast : last = id
      · subst hlast
        have hnew : last ∉ (arrivals capacity ids).2 := fun hold => hmem (not_forgotten h hold)
        rw [count_eq_zero_of_not_mem hnew, if_pos (beq_self_eq_true last)]
      · rw [if_neg (by simpa using hlast)]
        exact hbefore

end ClawMessenger.Verified.RecentIds
