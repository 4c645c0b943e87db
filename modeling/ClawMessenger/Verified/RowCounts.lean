import ClawMessenger.Verified.Rows

/-!
# Counting rows

How many rows satisfy a condition, before and after an update: those that the
update left alone, and those that satisfy it after they were changed.
-/

namespace ClawMessenger.Verified.Rows

open List

variable {ρ κ : Type*} (rows : List ρ) (p : ρ → Bool) (f : ρ → ρ) (q : ρ → Bool)

theorem countP_update : (update rows p f).countP q =
    rows.countP (fun row => !p row && q row) + rows.countP (fun row => p row && q (f row)) := by
  induction rows with
  | nil => rfl
  | cons row rest ih =>
    have hcons : update (row :: rest) p f = (if p row then f row else row) :: update rest p f := rfl
    rw [hcons, countP_cons, countP_cons, countP_cons, ih]
    cases p row with
    | true =>
      simp only [if_true, Bool.not_true, Bool.false_and, Bool.true_and]
      rw [if_neg Bool.false_ne_true]
      omega
    | false =>
      rw [if_neg Bool.false_ne_true]
      simp only [Bool.not_false, Bool.false_and, Bool.true_and]
      rw [if_neg Bool.false_ne_true]
      omega

/-- The rows that satisfy a condition, by whether they satisfy another. -/
theorem countP_split : rows.countP q =
    rows.countP (fun row => !p row && q row) + rows.countP (fun row => p row && q row) := by
  have hid : update rows p id = rows := by
    unfold update
    simp
  calc rows.countP q = (update rows p id).countP q := by rw [hid]
    _ = _ := countP_update rows p id q

variable {rows}

/-- Of rows with keys at most one satisfies a condition that fixes the key. -/
theorem Keyed.countP_le_one {key : ρ → κ} (h : Keyed key rows) {q : ρ → Bool}
    (hq : ∀ row ∈ rows, ∀ row' ∈ rows, q row = true → q row' = true → key row = key row') :
    rows.countP q ≤ 1 := by
  rw [countP_eq_length_filter]
  have hnodup : (rows.filter q).Nodup := (Nodup.of_map key h).filter q
  match hfilter : rows.filter q with
  | [] => exact Nat.zero_le 1
  | [row] => exact Nat.le_refl 1
  | row :: row' :: rest =>
    have hrow : row ∈ rows.filter q := by simp [hfilter]
    have hrow' : row' ∈ rows.filter q := by simp [hfilter]
    rw [mem_filter] at hrow hrow'
    have heq := h.eq_of_key hrow.1 hrow'.1 (hq row hrow.1 row' hrow'.1 hrow.2 hrow'.2)
    rw [hfilter, heq, nodup_cons] at hnodup
    exact absurd mem_cons_self hnodup.1

end ClawMessenger.Verified.Rows
