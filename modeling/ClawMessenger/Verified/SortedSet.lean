import Mathlib

/-!
# Sets ordered by a score

Each member has one score, and the members stand in the order of their scores,
those of one score in the order of the members themselves.  The order and the
uniqueness of the members are fields, so an operation that is given here keeps
them by construction.
-/

namespace ClawMessenger.Verified

open List

variable {σ μ : Type*} [LinearOrder σ] [LinearOrder μ]

/-- By score, and by member within a score. -/
def ScoreLe (a b : σ × μ) : Prop := a.1 < b.1 ∨ (a.1 = b.1 ∧ a.2 ≤ b.2)

instance (a b : σ × μ) : Decidable (ScoreLe a b) :=
  inferInstanceAs (Decidable (a.1 < b.1 ∨ (a.1 = b.1 ∧ a.2 ≤ b.2)))

theorem ScoreLe.total (a b : σ × μ) : ScoreLe a b ∨ ScoreLe b a := by
  rcases lt_trichotomy a.1 b.1 with hlt | heq | hgt
  · exact .inl (.inl hlt)
  · rcases le_total a.2 b.2 with hle | hle
    · exact .inl (.inr ⟨heq, hle⟩)
    · exact .inr (.inr ⟨heq.symm, hle⟩)
  · exact .inr (.inl hgt)

theorem ScoreLe.trans {a b c : σ × μ} (hab : ScoreLe a b) (hbc : ScoreLe b c) : ScoreLe a c := by
  rcases hab with hlt | ⟨heq, hle⟩
  · rcases hbc with hlt' | ⟨heq', -⟩
    · exact .inl (hlt.trans hlt')
    · exact .inl (heq' ▸ hlt)
  · rcases hbc with hlt' | ⟨heq', hle'⟩
    · exact .inl (heq ▸ hlt')
    · exact .inr ⟨heq.trans heq', hle.trans hle'⟩

instance : Std.Total (ScoreLe (σ := σ) (μ := μ)) := ⟨ScoreLe.total⟩

instance : IsTrans (σ × μ) ScoreLe := ⟨fun _ _ _ => ScoreLe.trans⟩

@[ext] structure SortedSet (σ μ : Type*) [LinearOrder σ] [LinearOrder μ] where
  entries : List (σ × μ)
  sorted : entries.Pairwise ScoreLe
  nodup : (entries.map Prod.snd).Nodup

namespace SortedSet

def empty : SortedSet σ μ := ⟨[], List.Pairwise.nil, List.nodup_nil⟩

instance : EmptyCollection (SortedSet σ μ) := ⟨empty⟩

def members (s : SortedSet σ μ) : List μ := s.entries.map Prod.snd

def remove (s : SortedSet σ μ) (m : μ) : SortedSet σ μ where
  entries := s.entries.filter fun e => e.2 ≠ m
  sorted := s.sorted.sublist List.filter_sublist
  nodup := s.nodup.sublist (List.filter_sublist.map Prod.snd)

/-- Give a member a score, in place of the one it may have. -/
def add (s : SortedSet σ μ) (score : σ) (m : μ) : SortedSet σ μ where
  entries := (s.remove m).entries.orderedInsert ScoreLe (score, m)
  sorted := List.Pairwise.orderedInsert (score, m) _ (s.remove m).sorted
  nodup := by
    have hperm := (List.perm_orderedInsert ScoreLe (score, m) (s.remove m).entries).map Prod.snd
    rw [hperm.nodup_iff, List.map_cons, List.nodup_cons]
    refine ⟨?_, (s.remove m).nodup⟩
    intro hmem
    obtain ⟨e, he, heq⟩ := List.mem_map.mp hmem
    have hne := (List.mem_filter.mp he).2
    simp [heq] at hne

variable {s : SortedSet σ μ} {m m' : μ} {score score' : σ}

theorem members_remove : (s.remove m).members = s.members.filter (· ≠ m) := by
  unfold members remove
  rw [filter_map]
  rfl

theorem mem_members : m ∈ s.members ↔ ∃ score, (score, m) ∈ s.entries := by
  unfold members
  rw [mem_map]
  constructor
  · rintro ⟨⟨score, m'⟩, he, rfl⟩
    exact ⟨score, he⟩
  · rintro ⟨score, he⟩
    exact ⟨_, he, rfl⟩

@[simp] theorem mem_remove : m' ∈ (s.remove m).members ↔ m' ∈ s.members ∧ m' ≠ m := by
  rw [members_remove, mem_filter, decide_eq_true_iff]

@[simp] theorem mem_add : m' ∈ (s.add score m).members ↔ m' = m ∨ m' ∈ s.members := by
  have hperm := perm_orderedInsert ScoreLe (score, m) (s.remove m).entries
  have hmem : m' ∈ (s.add score m).members ↔ m' = m ∨ m' ∈ (s.remove m).members := by
    unfold members
    rw [add, (hperm.map Prod.snd).mem_iff, map_cons, mem_cons]
  rw [hmem, mem_remove]
  by_cases heq : m' = m
  · simp [heq]
  · simp [heq]

/-- The first member and the others. -/
theorem remove_first {rest : List μ} (h : s.members = m :: rest) :
    (s.remove m).members = rest := by
  have hnodup : s.members.Nodup := s.nodup
  rw [h, nodup_cons] at hnodup
  rw [members_remove, h, filter_cons_of_neg (by simp), filter_eq_self]
  intro m' hm'
  rw [decide_eq_true_iff]
  rintro rfl
  exact hnodup.1 hm'

theorem remove_of_notMem (h : m ∉ s.members) : s.remove m = s := by
  apply SortedSet.ext
  unfold remove
  rw [filter_eq_self]
  rintro ⟨score, m'⟩ he
  rw [decide_eq_true_iff]
  rintro rfl
  exact h (mem_members.mpr ⟨score, he⟩)

end SortedSet

end ClawMessenger.Verified
