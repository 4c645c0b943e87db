import Mathlib

/-!
# Recurring instants

A recurrence is a set of instants with the function `next`, which gives the
first of them after an instant, and a fixed instant, the origin, where there is
none.

`upTo` enumerates the instants after a cursor, one `next` after the other, until
they pass a bound or a number of them has been found.  When it stops at the
bound it has found all of them if and only if there are not more than that
number, and then the last one found is the last one there is
(`getLast?_upTo_iff`).  When nothing recurs after the bound it does not stop: it
takes the origin for an instant and starts over from there
(`getLast?_upTo_restart_iff`).
-/

namespace ClawMessenger.Verified

open List

/-- Instants that recur. -/
structure Recurrence (α : Type*) [LinearOrder α] where
  active : Set α
  origin : α
  next : α → α
  /-- `next` is the first instant after its argument. -/
  least : ∀ t a, a ∈ active → t < a → IsLeast {b | b ∈ active ∧ t < b} (next t)
  none : ∀ t, (∀ a ∈ active, a ≤ t) → next t = origin

namespace Recurrence

variable {α : Type*} [LinearOrder α]

/-- The instants after `cursor` and not after `bound`. -/
def between (r : Recurrence α) (cursor bound : α) : Set α :=
  {a | a ∈ r.active ∧ cursor < a ∧ a ≤ bound}

/-- The enumeration up to `bound` comes to an end by itself. -/
def Stops (r : Recurrence α) (bound : α) : Prop :=
  (∃ a ∈ r.active, bound < a) ∨ bound < r.origin

/-- At most `n` instants after `cursor`, none after `bound`. -/
def upTo (next : α → α) (bound : α) : Nat → α → List α
  | 0, _ => []
  | n + 1, cursor =>
    if bound < next cursor then [] else next cursor :: upTo next bound n (next cursor)

theorem length_upTo_le (next : α → α) (bound : α) (n : Nat) (cursor : α) :
    (upTo next bound n cursor).length ≤ n := by
  induction n generalizing cursor with
  | zero => exact Nat.le_refl 0
  | succ n ih =>
    unfold upTo
    split
    · exact Nat.zero_le _
    · exact Nat.succ_le_succ (ih _)

variable {bound cursor : α}

theorem getLast?_upTo_eq_iterate {next : α → α} (hnext : ∀ t ≤ bound, next t ≤ bound) (n : Nat)
    (hcursor : cursor ≤ bound) :
    (upTo next bound (n + 1) cursor).getLast? = some (next^[n + 1] cursor) := by
  induction n generalizing cursor with
  | zero =>
    unfold upTo
    rw [if_neg (not_lt.mpr (hnext cursor hcursor))]
    rfl
  | succ n ih =>
    unfold upTo
    rw [if_neg (not_lt.mpr (hnext cursor hcursor)), getLast?_cons,
      ih (hnext cursor hcursor), Option.getD_some, Function.iterate_succ_apply next (n + 1)]

theorem le_getLast {l : List α} (h : l.Pairwise (· < ·)) (hne : l ≠ []) {a : α} (ha : a ∈ l) :
    a ≤ l.getLast hne := by
  rw [← dropLast_append_getLast hne, pairwise_append] at h
  rw [← dropLast_append_getLast hne] at ha
  rcases mem_append.mp ha with hearlier | hlast
  · exact (h.2.2 a hearlier _ (mem_singleton_self _)).le
  · exact (mem_singleton.mp hlast).le

variable (r : Recurrence α)

theorem next_spec {a : α} (ha : a ∈ r.active) (hlt : cursor < a) :
    r.next cursor ∈ r.active ∧ cursor < r.next cursor ∧ r.next cursor ≤ a := by
  obtain ⟨hmem, hlower⟩ := r.least cursor a ha hlt
  exact ⟨hmem.1, hmem.2, hlower ⟨ha, hlt⟩⟩

/-- A step that does not pass the bound is a step to an instant. -/
theorem next_mem (hstop : r.Stops bound) (hcursor : cursor ≤ bound)
    (hnext : r.next cursor ≤ bound) : r.next cursor ∈ r.active ∧ cursor < r.next cursor := by
  by_cases hlater : ∃ a ∈ r.active, cursor < a
  · obtain ⟨a, ha, hlt⟩ := hlater
    have hspec := r.next_spec ha hlt
    exact ⟨hspec.1, hspec.2.1⟩
  · have hnone : ∀ a ∈ r.active, a ≤ cursor := fun a ha => not_lt.mp fun hlt => hlater ⟨a, ha, hlt⟩
    rw [r.none cursor hnone] at hnext
    rcases hstop with ⟨a, ha, hlt⟩ | horigin
    · exact absurd (lt_of_le_of_lt hcursor hlt) (not_lt.mpr (hnone a ha))
    · exact absurd horigin (not_lt.mpr hnext)

/-- What is enumerated recurs, in order. -/
theorem upTo_sound {n : Nat} (hstop : r.Stops bound) (hcursor : cursor ≤ bound) :
    (∀ t ∈ upTo r.next bound n cursor, t ∈ r.between cursor bound) ∧
      (upTo r.next bound n cursor).Pairwise (· < ·) := by
  induction n generalizing cursor with
  | zero =>
    refine ⟨?_, Pairwise.nil⟩
    intro t ht
    exact absurd ht not_mem_nil
  | succ n ih =>
    unfold upTo
    split
    · refine ⟨?_, Pairwise.nil⟩
      intro t ht
      exact absurd ht not_mem_nil
    · rename_i hbound
      obtain ⟨hmem, hafter⟩ := r.next_mem hstop hcursor (not_lt.mp hbound)
      obtain ⟨hrest, hsorted⟩ := ih (not_lt.mp hbound)
      refine ⟨?_, pairwise_cons.mpr ⟨fun t ht => (hrest t ht).2.1, hsorted⟩⟩
      intro t ht
      rcases mem_cons.mp ht with heq | hlater
      · rw [heq]
        exact ⟨hmem, hafter, not_lt.mp hbound⟩
      · obtain ⟨hactive, hgt, hle⟩ := hrest t hlater
        exact ⟨hactive, lt_trans hafter hgt, hle⟩

/-- An instant is enumerated, or the enumeration has stopped before it. -/
theorem upTo_complete {n : Nat} {a : α} (ha : a ∈ r.between cursor bound) :
    a ∈ upTo r.next bound n cursor ∨
      ((upTo r.next bound n cursor).length = n ∧ ∀ t ∈ upTo r.next bound n cursor, t < a) := by
  induction n generalizing cursor with
  | zero =>
    refine .inr ⟨rfl, ?_⟩
    intro t ht
    exact absurd ht not_mem_nil
  | succ n ih =>
    obtain ⟨hactive, hlt, hle⟩ := ha
    obtain ⟨hmem, _, hnext⟩ := r.next_spec hactive hlt
    unfold upTo
    rw [if_neg (not_lt.mpr (le_trans hnext hle))]
    rcases lt_or_eq_of_le hnext with hbefore | heq
    · rcases ih ⟨hactive, hbefore, hle⟩ with hfound | ⟨hlength, hbelow⟩
      · exact .inl (mem_cons_of_mem _ hfound)
      · refine .inr ⟨by rw [length_cons, hlength], ?_⟩
        intro t ht
        rcases mem_cons.mp ht with htop | hlater
        · rw [htop]
          exact hbefore
        · exact hbelow t hlater
    · rw [← heq]
      exact .inl mem_cons_self

section Counted

variable [LocallyFiniteOrder α]

theorem between_finite (cursor bound : α) : (r.between cursor bound).Finite :=
  (Set.finite_Ioc cursor bound).subset fun _ h => h.2

variable {bound cursor m : α}

theorem exists_isGreatest (h : (r.between cursor bound).Nonempty) :
    ∃ m, IsGreatest (r.between cursor bound) m := by
  have hfinite := r.between_finite cursor bound
  have hnonempty : hfinite.toFinset.Nonempty := hfinite.toFinset_nonempty.mpr h
  have hmax := hfinite.toFinset.isGreatest_max' hnonempty
  rw [hfinite.coe_toFinset] at hmax
  exact ⟨_, hmax⟩

/-- The last instant enumerated is the last one there is if and only if there are
not more than the enumeration may find. -/
theorem getLast?_upTo_iff {n : Nat} (hstop : r.Stops bound)
    (hm : IsGreatest (r.between cursor bound) m) :
    (upTo r.next bound n cursor).getLast? = some m ↔ (r.between cursor bound).ncard ≤ n := by
  obtain ⟨hmem, hupper⟩ := hm
  obtain ⟨hsound, hsorted⟩ := r.upTo_sound (n := n) hstop (le_trans hmem.2.1.le hmem.2.2)
  have hnodup : (upTo r.next bound n cursor).Nodup := hsorted.imp fun hlt => ne_of_lt hlt
  constructor
  · intro hlast
    have hlastMem := mem_of_getLast? hlast
    have hall : r.between cursor bound ⊆ {a | a ∈ upTo r.next bound n cursor} := by
      intro a ha
      rcases r.upTo_complete (n := n) ha with hfound | ⟨_, hbelow⟩
      · exact hfound
      · exact absurd (hupper ha) (not_le.mpr (hbelow m hlastMem))
    calc (r.between cursor bound).ncard
        ≤ {a | a ∈ upTo r.next bound n cursor}.ncard :=
          Set.ncard_le_ncard hall (finite_toSet _)
      _ = (upTo r.next bound n cursor).toFinset.card := by
          rw [← Set.ncard_coe_finset, coe_toFinset]
      _ ≤ n := by
          rw [toFinset_card_of_nodup hnodup]
          exact length_upTo_le r.next bound n cursor
  · intro hcount
    have hfound : m ∈ upTo r.next bound n cursor := by
      rcases r.upTo_complete (n := n) hmem with hfound | ⟨hlength, hbelow⟩
      · exact hfound
      · -- a full enumeration below the last instant leaves one too many
        have hfresh : m ∉ upTo r.next bound n cursor := fun h => lt_irrefl m (hbelow m h)
        have hsub : {a | a ∈ m :: upTo r.next bound n cursor} ⊆ r.between cursor bound := by
          intro a ha
          rcases mem_cons.mp ha with heq | hlater
          · rw [heq]
            exact hmem
          · exact hsound a hlater
        have hcard : n + 1 ≤ (r.between cursor bound).ncard := by
          calc n + 1 = (m :: upTo r.next bound n cursor).toFinset.card := by
                rw [toFinset_card_of_nodup (nodup_cons.mpr ⟨hfresh, hnodup⟩),
                  length_cons, hlength]
            _ = {a | a ∈ m :: upTo r.next bound n cursor}.ncard := by
                rw [← Set.ncard_coe_finset, coe_toFinset]
            _ ≤ (r.between cursor bound).ncard :=
                Set.ncard_le_ncard hsub (r.between_finite cursor bound)
        exact absurd (le_trans hcard hcount) (Nat.not_succ_le_self n)
    have hne : upTo r.next bound n cursor ≠ [] := ne_nil_of_mem hfound
    rw [getLast?_eq_some_getLast hne]
    congr 1
    have hlastMem := getLast_mem hne
    apply le_antisymm (hupper (hsound _ hlastMem))
    exact le_getLast hsorted hne hfound

/-! ## Enumerations that start over -/

/-- One step counts down the instants that are left. -/
theorem ncard_between_next (hm : m ∈ r.between cursor bound) :
    (r.between cursor bound).ncard = (r.between (r.next cursor) bound).ncard + 1 := by
  obtain ⟨hactive, hlt, hle⟩ := hm
  obtain ⟨hmem, hafter, hnext⟩ := r.next_spec hactive hlt
  have hinsert : r.between cursor bound = insert (r.next cursor) (r.between (r.next cursor) bound) := by
    ext a
    constructor
    · intro ha
      rcases lt_or_eq_of_le (r.next_spec ha.1 ha.2.1).2.2 with hlater | heq
      · exact .inr ⟨ha.1, hlater, ha.2.2⟩
      · exact .inl heq.symm
    · intro ha
      rcases ha with heq | hlater
      · rw [heq]
        exact ⟨hmem, hafter, le_trans hnext hle⟩
      · exact ⟨hlater.1, lt_trans hafter hlater.2.1, hlater.2.2⟩
  rw [hinsert]
  apply Set.ncard_insert_of_notMem _ (r.between_finite _ _)
  exact fun h => lt_irrefl _ h.2.1

theorem succ_dvd_succ_iff {k n : Nat} : k ≤ n ∧ k + 1 ∣ n - k ↔ k + 1 ∣ n + 1 := by
  constructor
  · rintro ⟨hle, hdvd⟩
    have hsum : n + 1 = n - k + (k + 1) := by omega
    rw [hsum]
    exact dvd_add hdvd dvd_rfl
  · intro hdvd
    have hle := Nat.le_of_dvd (Nat.succ_pos n) hdvd
    refine ⟨Nat.le_of_succ_le_succ hle, ?_⟩
    rw [← Nat.succ_sub_succ]
    exact Nat.dvd_sub hdvd dvd_rfl

/-- Where nothing recurs after `m`, the steps go round from the origin to `m`. -/
theorem iterate_next_eq_iff (hm : IsGreatest r.active m) (hbound : m ≤ bound) (n : Nat)
    (hcursor : cursor ≤ m) :
    r.next^[n] cursor = m ↔
      (r.between cursor bound).ncard ≤ n ∧
        (r.between r.origin bound).ncard + 1 ∣ n - (r.between cursor bound).ncard ∧
        (r.origin ≤ m ∨ n = (r.between cursor bound).ncard) := by
  have hempty : ∀ t, m ≤ t → r.between t bound = ∅ := by
    intro t ht
    ext a
    constructor
    · intro ha
      exact absurd (lt_of_le_of_lt ht ha.2.1) (not_lt.mpr (hm.2 ha.1))
    · intro ha
      exact absurd ha (Set.notMem_empty a)
  induction n generalizing cursor with
  | zero =>
    rcases lt_or_eq_of_le hcursor with hlt | heq
    · have hcount := r.ncard_between_next ⟨hm.1, hlt, hbound⟩
      constructor
      · intro h
        exact absurd h (ne_of_lt hlt)
      · intro h
        omega
    · rw [hempty cursor (le_of_eq heq.symm), Set.ncard_empty]
      constructor
      · intro _
        exact ⟨le_rfl, dvd_zero _, .inr rfl⟩
      · intro _
        exact heq
  | succ n ih =>
    rw [Function.iterate_succ_apply]
    rcases lt_or_eq_of_le hcursor with hlt | heq
    · have hnext := (r.next_spec hm.1 hlt).2.2
      rw [r.ncard_between_next ⟨hm.1, hlt, hbound⟩, Nat.succ_sub_succ, Nat.succ_le_succ_iff,
        Nat.succ_inj]
      exact ih hnext
    · -- past the last instant the steps go on from the origin
      have hnone : ∀ t, m ≤ t → r.next t = r.origin := fun t ht =>
        r.none t fun a ha => le_trans (hm.2 ha) ht
      rw [hempty cursor (le_of_eq heq.symm), Set.ncard_empty, hnone cursor (le_of_eq heq.symm)]
      rcases le_or_gt r.origin m with horigin | horigin
      · rw [Nat.sub_zero, ← succ_dvd_succ_iff]
        have hagain := ih horigin
        constructor
        · intro h
          obtain ⟨hle, hdvd, _⟩ := hagain.mp h
          exact ⟨Nat.zero_le _, ⟨hle, hdvd⟩, .inl horigin⟩
        · rintro ⟨_, ⟨hle, hdvd⟩, _⟩
          exact hagain.mpr ⟨hle, hdvd, .inl horigin⟩
      · rw [Function.iterate_fixed (hnone r.origin horigin.le)]
        constructor
        · intro h
          exact absurd h (ne_of_gt horigin)
        · rintro ⟨_, _, hle | hzero⟩
          · exact absurd horigin (not_lt.mpr hle)
          · exact absurd hzero (Nat.succ_ne_zero n)

/-- An enumeration that does not stop ends with the last instant if and only if it
has gone round from the origin and come to it again. -/
theorem getLast?_upTo_restart_iff {n : Nat} (hstop : ¬ r.Stops bound)
    (hm : IsGreatest (r.between cursor bound) m) :
    (upTo r.next bound n cursor).getLast? = some m ↔
      (r.between cursor bound).ncard ≤ n ∧
        (r.between r.origin bound).ncard + 1 ∣ n - (r.between cursor bound).ncard ∧
        (r.origin ≤ m ∨ n = (r.between cursor bound).ncard) := by
  obtain ⟨⟨hactive, hafter, hle⟩, hupper⟩ := hm
  have hall : ∀ a ∈ r.active, a ≤ bound := fun a ha =>
    not_lt.mp fun hlt => hstop (.inl ⟨a, ha, hlt⟩)
  have hgreatest : IsGreatest r.active m := by
    refine ⟨hactive, ?_⟩
    intro a ha
    by_cases hearly : a ≤ cursor
    · exact le_trans hearly hafter.le
    · exact hupper ⟨ha, not_le.mp hearly, hall a ha⟩
  rw [← r.iterate_next_eq_iff hgreatest hle n hafter.le]
  cases n with
  | zero =>
    constructor
    · intro h
      cases h
    · intro h
      exact absurd h (ne_of_lt hafter)
  | succ n =>
    have hnext : ∀ t ≤ bound, r.next t ≤ bound := by
      intro t _
      by_cases hlater : ∃ a ∈ r.active, t < a
      · obtain ⟨a, ha, hlt⟩ := hlater
        exact le_trans (r.next_spec ha hlt).2.2 (hall a ha)
      · rw [r.none t fun a ha => not_lt.mp fun hlt => hlater ⟨a, ha, hlt⟩]
        exact not_lt.mp fun h => hstop (.inr h)
    rw [getLast?_upTo_eq_iterate hnext n (le_trans hafter.le hle), Option.some_inj]

end Counted

end Recurrence

end ClawMessenger.Verified
