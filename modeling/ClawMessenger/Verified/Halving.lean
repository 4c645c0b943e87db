import Mathlib.Order.Basic

/-!
# Halving towards the last place accepted

A test on places is closed downwards, and the last place it accepts is wanted.  The search
keeps a window whose low end is accepted and after whose high end nothing is, and takes the
middle rounded up, so that either outcome makes the window smaller.
-/

namespace ClawMessenger.Verified.Halving

variable (ok : Nat → Bool)

/-- The last place accepted between `low`, which is, and `high`. -/
def last (low high : Nat) : Nat :=
  if low < high then
    if ok ((low + high + 1) / 2) then last ((low + high + 1) / 2) high
    else last low ((low + high + 1) / 2 - 1)
  else low
termination_by high - low

/-- What the window keeps between two rounds. -/
structure Window (low high : Nat) : Prop where
  le : low ≤ high
  low_ok : ok low = true
  after : ∀ j, high < j → ok j = false

variable {ok} {low high : Nat}

/-- A search that starts at an accepted place ends at one. -/
theorem last_ok (h : ok low = true) : ok (last ok low high) = true := by
  induction low, high using last.induct ok with
  | case1 low high hlt hmiddle ih =>
    rw [last, if_pos hlt, if_pos hmiddle]
    exact ih hmiddle
  | case2 low high hlt hmiddle ih =>
    rw [last, if_pos hlt, if_neg hmiddle]
    exact ih h
  | case3 low high hge =>
    rw [last, if_neg hge]
    exact h

/-- The search ends at the last place accepted. -/
theorem Window.last_spec (hdown : ∀ i j, i ≤ j → ok j = true → ok i = true) (h : Window ok low high) :
    ok (last ok low high) = true ∧ ∀ j, last ok low high < j → ok j = false := by
  induction low, high using last.induct ok with
  | case1 low high hlt hmiddle ih =>
    rw [last, if_pos hlt, if_pos hmiddle]
    exact ih ⟨by omega, hmiddle, h.after⟩
  | case2 low high hlt hmiddle ih =>
    rw [last, if_pos hlt, if_neg hmiddle]
    have hafter : ∀ j, (low + high + 1) / 2 - 1 < j → ok j = false := by
      intro j hj
      rw [Bool.eq_false_iff]
      intro hok
      exact hmiddle (hdown _ j (by omega) hok)
    exact ih ⟨by omega, h.low_ok, hafter⟩
  | case3 low high hge =>
    rw [last, if_neg hge]
    have heq : low = high := Nat.le_antisymm h.le (Nat.le_of_not_lt hge)
    exact ⟨h.low_ok, fun j hj => h.after j (heq ▸ hj)⟩

end ClawMessenger.Verified.Halving
