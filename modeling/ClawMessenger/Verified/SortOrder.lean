import Mathlib

/-!
# Sort orders

An order to sort by is total and transitive, but may have ties.  Orders are put
together from the columns they look at: by a key, the other way round, with the
missing values last, and with a second order for the ties of the first.

A list sorted strictly is determined by its members (`eq_of_sorted`), and whether
one more member has its slot is a matter of what stands before and behind it
(`pairwise_middle`).
-/

namespace ClawMessenger.Verified

open List

structure SortOrder (α : Type*) where
  le : α → α → Bool
  total : ∀ a b, le a b = true ∨ le b a = true
  trans : ∀ a b c, le a b = true → le b c = true → le a c = true

namespace SortOrder

variable {α β : Type*}

def linear (α : Type*) [LinearOrder α] : SortOrder α where
  le a b := decide (a ≤ b)
  total a b := by
    rw [decide_eq_true_eq, decide_eq_true_eq]
    exact le_total a b
  trans a b c hab hbc := by
    rw [decide_eq_true_eq] at hab hbc ⊢
    exact hab.trans hbc

/-- By a key. -/
def on (o : SortOrder α) (key : β → α) : SortOrder β where
  le a b := o.le (key a) (key b)
  total a b := o.total (key a) (key b)
  trans a b c := o.trans (key a) (key b) (key c)

def reverse (o : SortOrder α) : SortOrder α where
  le a b := o.le b a
  total a b := o.total b a
  trans a b c hab hbc := o.trans c b a hbc hab

/-- Missing values last. -/
def nullsLast (o : SortOrder α) : SortOrder (Option α) where
  le a b :=
    match a, b with
    | some a, some b => o.le a b
    | _, none => true
    | none, some _ => false
  total a b := by
    cases a with
    | none =>
      cases b with
      | none => exact Or.inl rfl
      | some b => exact Or.inr rfl
    | some a =>
      cases b with
      | none => exact Or.inl rfl
      | some b => exact o.total a b
  trans a b c hab hbc := by
    cases c with
    | none =>
      cases a with
      | none => rfl
      | some a => rfl
    | some c =>
      cases b with
      | none => cases hbc
      | some b =>
        cases a with
        | none => cases hab
        | some a => exact o.trans a b c hab hbc

/-- A second order for the ties of the first. -/
def thenBy (o o' : SortOrder α) : SortOrder α where
  le a b := o.le a b && (!o.le b a || o'.le a b)
  total a b := by
    cases hab : o.le a b with
    | false =>
      rcases o.total a b with h | h
      · rw [hab] at h
        cases h
      · simp [h]
    | true =>
      cases hba : o.le b a with
      | false => simp
      | true => simpa using o'.total a b
  trans a b c hab hbc := by
    rw [Bool.and_eq_true, Bool.or_eq_true, Bool.not_eq_true'] at hab hbc ⊢
    refine ⟨o.trans a b c hab.1 hbc.1, ?_⟩
    by_cases hca : o.le c a = true
    · right
      have hba := o.trans b c a hbc.1 hca
      have hcb := o.trans c a b hca hab.1
      have hab' := hab.2.resolve_left (by simp [hba])
      have hbc' := hbc.2.resolve_left (by simp [hcb])
      exact o'.trans a b c hab' hbc'
    · left
      simpa using hca

/-- Strictly before. -/
def Before (o : SortOrder α) (a b : α) : Prop := o.le a b = true ∧ o.le b a = false

instance (o : SortOrder α) (a b : α) : Decidable (o.Before a b) :=
  inferInstanceAs (Decidable (_ ∧ _))

variable {o o' : SortOrder α} {a b c : α}

theorem Before.irrefl (h : o.Before a a) : False := by
  have hle := h.1
  rw [h.2] at hle
  cases hle

theorem Before.asymm (h : o.Before a b) : ¬ o.Before b a := by
  intro h'
  have hle := h.1
  rw [h'.2] at hle
  cases hle

/-- A tie of both. -/
theorem thenBy_tie (hab : (o.thenBy o').le a b = true) (hba : (o.thenBy o').le b a = true) :
    o'.le a b = true ∧ o'.le b a = true := by
  have hab' : (o.le a b && (!o.le b a || o'.le a b)) = true := hab
  have hba' : (o.le b a && (!o.le a b || o'.le b a)) = true := hba
  rw [Bool.and_eq_true, Bool.or_eq_true, Bool.not_eq_true'] at hab' hba'
  exact ⟨hab'.2.resolve_left (by simp [hba'.1]), hba'.2.resolve_left (by simp [hab'.1])⟩

/-! ## Before, column by column -/

theorem before_on {key : β → α} {a b : β} : (o.on key).Before a b ↔ o.Before (key a) (key b) :=
  Iff.rfl

theorem before_reverse : o.reverse.Before a b ↔ o.Before b a := Iff.rfl

theorem before_linear [LinearOrder α] : (linear α).Before a b ↔ a < b := by
  show decide (a ≤ b) = true ∧ decide (b ≤ a) = false ↔ a < b
  rw [decide_eq_true_eq, decide_eq_false_iff_not, lt_iff_le_not_ge]

theorem before_thenBy :
    (o.thenBy o').Before a b ↔
      o.Before a b ∨ (o.le a b = true ∧ o.le b a = true) ∧ o'.Before a b := by
  show (o.le a b && (!o.le b a || o'.le a b)) = true ∧
    (o.le b a && (!o.le a b || o'.le b a)) = false ↔ _
  unfold Before
  cases o.le a b <;> cases o.le b a <;> simp

theorem before_nullsLast {a b : Option α} :
    o.nullsLast.Before a b ↔
      ∃ x, a = some x ∧ ∀ y, b = some y → o.Before x y := by
  cases a with
  | none =>
    constructor
    · intro h
      cases b with
      | none => cases h.2
      | some y => cases h.1
    · rintro ⟨x, hx, _⟩
      cases hx
  | some x =>
    cases b with
    | none => exact ⟨fun _ => ⟨x, rfl, nofun⟩, fun _ => ⟨rfl, rfl⟩⟩
    | some y =>
      constructor
      · intro h
        exact ⟨x, rfl, fun z hz => Option.some.inj hz ▸ h⟩
      · rintro ⟨z, hz, h⟩
        rw [Option.some.inj hz]
        exact h y rfl

/-! ## Sorted lists -/

variable {l : List α}

theorem nodup_of_sorted (h : l.Pairwise o.Before) : l.Nodup := by
  apply h.imp
  rintro a b hab rfl
  exact hab.irrefl

/-- A sorted list is determined by its members. -/
theorem eq_of_sorted {l' : List α} (h : l.Pairwise o.Before) (h' : l'.Pairwise o.Before)
    (hmem : ∀ a, a ∈ l ↔ a ∈ l') : l = l' := by
  have hperm : l.Perm l' :=
    (perm_ext_iff_of_nodup (nodup_of_sorted h) (nodup_of_sorted h')).mpr hmem
  apply hperm.eq_of_pairwise _ h h'
  intro a b _ _ hab hba
  exact absurd hba hab.asymm

variable {front back : List α}

/-- Whether a member in the middle has its slot. -/
theorem pairwise_middle {a : α} (h : (front ++ back).Pairwise o.Before) :
    (front ++ a :: back).Pairwise o.Before ↔
      (∀ b ∈ front, o.Before b a) ∧ ∀ b ∈ back, o.Before a b := by
  rw [pairwise_append] at h
  rw [pairwise_append, pairwise_cons]
  constructor
  · rintro ⟨_, ⟨hback, _⟩, hfront⟩
    exact ⟨fun b hb => hfront b hb a mem_cons_self, hback⟩
  · rintro ⟨hfront, hback⟩
    refine ⟨h.1, ⟨hback, h.2.1⟩, ?_⟩
    intro b hb c hc
    rcases mem_cons.mp hc with rfl | hc
    · exact hfront b hb
    · exact h.2.2 b hb c hc

/-- What stands behind a member is what it is before. -/
theorem filter_before {a : α} (h : (front ++ a :: back).Pairwise o.Before) {p : α → Bool}
    (hp : ∀ b, p b = true ↔ o.Before a b) :
    (front ++ a :: back).filter p = back := by
  rw [pairwise_append, pairwise_cons] at h
  obtain ⟨_, ⟨hback, _⟩, hfront⟩ := h
  have hnone : front.filter p = [] := by
    apply filter_eq_nil_iff.mpr
    intro b hb hbefore
    exact ((hp b).mp hbefore).asymm (hfront b hb a mem_cons_self)
  have hall : back.filter p = back :=
    filter_eq_self.mpr fun b hb => (hp b).mpr (hback b hb)
  have hself : p a ≠ true := fun hself => ((hp a).mp hself).irrefl
  rw [filter_append, filter_cons, hnone, hall, if_neg hself, nil_append]

/-! ## Sorting -/

def sort (o : SortOrder α) (l : List α) : List α := l.insertionSort fun a b => o.le a b = true

theorem sort_perm (o : SortOrder α) (l : List α) : (o.sort l).Perm l := perm_insertionSort _ _

/-- Without ties, what is sorted is sorted strictly. -/
theorem sort_sorted (hnodup : l.Nodup)
    (hties : ∀ a ∈ l, ∀ b ∈ l, o.le a b = true → o.le b a = true → a = b) :
    (o.sort l).Pairwise o.Before := by
  have : Std.Total fun a b => o.le a b = true := ⟨o.total⟩
  have : IsTrans α fun a b => o.le a b = true := ⟨o.trans⟩
  have hsorted : (o.sort l).Pairwise fun a b => o.le a b = true := pairwise_insertionSort _ _
  have hdistinct : (o.sort l).Nodup := (o.sort_perm l).nodup_iff.mpr hnodup
  apply (hsorted.and hdistinct).imp_of_mem
  rintro a b ha hb ⟨hab, hne⟩
  refine ⟨hab, ?_⟩
  cases hba : o.le b a with
  | false => rfl
  | true =>
    have hmem := fun c => (o.sort_perm l).mem_iff (a := c)
    exact absurd (hties a ((hmem a).mp ha) b ((hmem b).mp hb) hab hba) hne

/-- Sorting some of the members is taking them from the sorted list. -/
theorem sort_filter (p : α → Bool) (hnodup : l.Nodup)
    (hties : ∀ a ∈ l, ∀ b ∈ l, o.le a b = true → o.le b a = true → a = b) :
    o.sort (l.filter p) = (o.sort l).filter p := by
  apply eq_of_sorted
  · apply sort_sorted (hnodup.filter p)
    intro a ha b hb
    exact hties a (mem_of_mem_filter ha) b (mem_of_mem_filter hb)
  · exact (sort_sorted hnodup hties).filter p
  · intro a
    rw [(o.sort_perm _).mem_iff, mem_filter, mem_filter, (o.sort_perm _).mem_iff]

end SortOrder

end ClawMessenger.Verified
