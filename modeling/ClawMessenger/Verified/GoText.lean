import Mathlib.Data.List.DropRight

/-!
# Trimming Go strings

A Go string of well-formed UTF-8, read as characters.
-/

namespace ClawMessenger.Verified.GoText

open List

abbrev Text := List Char

/-- `unicode.IsSpace`. -/
def isSpace (c : Char) : Bool :=
  let n := c.toNat
  (0x09 ≤ n && n ≤ 0x0D) || n == 0x20 || n == 0x85 || n == 0xA0 || n == 0x1680
    || (0x2000 ≤ n && n ≤ 0x200A) || n == 0x2028 || n == 0x2029 || n == 0x202F
    || n == 0x205F || n == 0x3000

/-- `strings.TrimSpace`. -/
def trimSpace (s : Text) : Text := (s.dropWhile isSpace).rdropWhile isSpace

/-- Trimming on the right stops at a character that is no white space. -/
theorem rdropWhile_append {c : Char} (hc : isSpace c = false) (p r : Text) :
    (p ++ [c] ++ r).rdropWhile isSpace = p ++ [c] ++ r.rdropWhile isSpace := by
  induction r using reverseRecOn with
  | nil =>
    rw [append_nil, rdropWhile_concat, if_neg (by simp [hc])]
    simp
  | append_singleton r d ih =>
    rw [← append_assoc, rdropWhile_concat, rdropWhile_concat]
    split_ifs
    · exact ih
    · rw [append_assoc]

/-- A start between two characters that are no white space survives trimming. -/
theorem isPrefix_trimSpace {a c : Char} {p s : Text} (h : a :: (p ++ [c]) <+: s)
    (ha : isSpace a = false) (hc : isSpace c = false) : a :: (p ++ [c]) <+: trimSpace s := by
  obtain ⟨r, rfl⟩ := h
  rw [trimSpace, cons_append, dropWhile_cons_of_neg (by simp [ha])]
  exact ⟨r.rdropWhile isSpace, (rdropWhile_append (p := a :: p) hc r).symm⟩

/-- White space at the end does not matter. -/
theorem trimSpace_rdropWhile (s : Text) : trimSpace (s.rdropWhile isSpace) = trimSpace s := by
  induction s using reverseRecOn with
  | nil => rfl
  | append_singleton s c ih =>
    rw [rdropWhile_concat]
    split_ifs with hc
    · rw [ih, trimSpace, trimSpace, dropWhile_append]
      split_ifs with hempty
      · rw [isEmpty_iff.mp hempty, dropWhile_cons_of_pos hc]
        rfl
      · rw [rdropWhile_concat, if_pos hc]
    · rfl

end ClawMessenger.Verified.GoText
