import Mathlib.Data.List.Infix

/-!
# Patterns of `LIKE`

A `%` of a pattern stands for any text and a `_` for any one character, so a word with an
underscore in it matches more than itself.  A pattern that is a word between two `%` finds the
word anywhere (`like_between`), and literally only where it has no underscore
(`starts_eq_isPrefixOf`).
-/

namespace ClawMessenger.Verified.SqlLike

open List

/-- `text LIKE pattern`, for patterns without an escape. -/
def like : List Char → List Char → Bool
  | [] => List.isEmpty
  | c :: pattern => fun text =>
    if c = '%' then text.tails.any (like pattern)
    else
      match text with
      | [] => false
      | d :: rest => (c = '_' || c = d) && like pattern rest

/-- `text` starts with `word`, an underscore of which is any character. -/
def starts : List Char → List Char → Bool
  | [], _ => true
  | _ :: _, [] => false
  | c :: word, d :: rest => (c = '_' || c = d) && starts word rest

theorem like_percent (pattern text : List Char) : like ('%' :: pattern) text = text.tails.any (like pattern) := by
  rw [like]
  exact if_pos rfl

variable {word : List Char}

theorem like_append_any (h : '%' ∉ word) (text : List Char) :
    like (word ++ ['%']) text = starts word text := by
  induction word generalizing text with
  | nil =>
    rw [nil_append, like_percent, starts, any_eq_true]
    exact ⟨[], (mem_tails _ _).mpr (nil_suffix), rfl⟩
  | cons c word ih =>
    have hc : c ≠ '%' := fun heq => h (heq ▸ mem_cons_self)
    have hword := ih fun hmem => h (mem_cons_of_mem c hmem)
    rw [cons_append, like]
    dsimp only
    rw [if_neg hc]
    cases text with
    | nil => rfl
    | cons d rest =>
      dsimp only
      rw [hword, starts]

/-- A word between two `%` is looked for everywhere. -/
theorem like_between (h : '%' ∉ word) (text : List Char) :
    like ('%' :: (word ++ ['%'])) text = text.tails.any (starts word) := by
  rw [like_percent]
  exact congrArg text.tails.any (funext (like_append_any h))

theorem starts_eq_isPrefixOf (h : '_' ∉ word) (text : List Char) :
    starts word text = word.isPrefixOf text := by
  induction word generalizing text with
  | nil => rfl
  | cons c word ih =>
    cases text with
    | nil => rfl
    | cons d rest =>
      have hc : c ≠ '_' := fun heq => h (heq ▸ mem_cons_self)
      rw [starts, ih fun hmem => h (mem_cons_of_mem c hmem), decide_eq_false hc, Bool.false_or]
      rfl

theorem starts_of_isPrefixOf {text : List Char} (h : word.isPrefixOf text = true) :
    starts word text = true := by
  induction word generalizing text with
  | nil => rfl
  | cons c word ih =>
    cases text with
    | nil => cases h
    | cons d rest =>
      rw [isPrefixOf, Bool.and_eq_true, beq_iff_eq] at h
      rw [starts, ih h.2, decide_eq_true h.1, Bool.or_true]
      rfl

end ClawMessenger.Verified.SqlLike
