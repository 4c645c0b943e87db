import ClawMessenger.Verified.JsString

/-!
# Beginnings of a text

A text is cut between two units, possibly inside a surrogate pair.  The UTF-8 length of
its beginnings grows with them (`byteLength_take_le`), although a cut inside a pair
replaces one code point of four bytes by one of three.
-/

namespace ClawMessenger.Verified.JsString

open List

/-! ## Lengths of code points -/

def pointBytes (n : Nat) : Nat := (String.utf8EncodeChar (scalar n)).length

theorem byteLength_eq_sum (s : JsString) : byteLength s = ((codePoints s).map pointBytes).sum := by
  unfold byteLength utf8 toChars
  rw [length_flatMap, map_map]
  rfl

theorem pointBytes_pos (n : Nat) : 0 < pointBytes n := by
  unfold pointBytes
  rw [String.length_utf8EncodeChar]
  exact Char.utf8Size_pos _

theorem pointBytes_unit_le (u : UInt16) : pointBytes u.toNat ≤ 3 := utf8EncodeChar_scalar_length_le _ u.toNat_lt

/-- A supplementary code point takes four bytes. -/
theorem pointBytes_pair {u v : UInt16} (hu : isHighSurrogate u = true) (hv : isLowSurrogate v = true) :
    pointBytes (pairPoint u v) = 4 := by
  obtain ⟨hge, hlt⟩ := pairPoint_bounds hu hv
  have hvalid : (pairPoint u v).isValidChar := .inr ⟨by omega, hlt⟩
  have hnat : (scalar (pairPoint u v)).val.toNat = pairPoint u v := toNat_scalar hvalid
  unfold pointBytes
  rw [String.length_utf8EncodeChar, Char.utf8Size]
  rw [if_neg, if_neg, if_neg]
  · rw [UInt32.le_iff_toNat_le, hnat]
    show ¬ pairPoint u v ≤ 65535
    omega
  · rw [UInt32.le_iff_toNat_le, hnat]
    show ¬ pairPoint u v ≤ 2047
    omega
  · rw [UInt32.le_iff_toNat_le, hnat]
    show ¬ pairPoint u v ≤ 127
    omega

/-! ## Longer texts -/

/-- A text is no longer than what begins with it. -/
theorem byteLength_le_append (s t : JsString) : byteLength s ≤ byteLength (s ++ t) := by
  rw [byteLength_eq_sum, byteLength_eq_sum]
  induction s using codePoints.induct with
  | case1 => exact Nat.zero_le _
  | case2 u =>
    cases t with
    | nil => exact le_of_eq rfl
    | cons v rest =>
      have hunit := pointBytes_unit_le u
      simp only [singleton_append, codePoints]
      split
      · rename_i hpair
        rw [Bool.and_eq_true] at hpair
        have hfour := pointBytes_pair hpair.1 hpair.2
        simp only [map_cons, map_nil, sum_cons, sum_nil]
        omega
      · simp only [map_cons, map_nil, sum_cons, sum_nil]
        omega
  | case3 u v rest hpair ih =>
    simp only [cons_append, codePoints]
    rw [if_pos hpair, if_pos hpair, map_cons, map_cons, sum_cons, sum_cons]
    exact Nat.add_le_add_left ih _
  | case4 u v rest hpair ih =>
    simp only [cons_append, codePoints] at ih ⊢
    rw [if_neg hpair, if_neg hpair, map_cons, map_cons, sum_cons, sum_cons]
    exact Nat.add_le_add_left ih _

theorem byteLength_take_le (s : JsString) {j k : Nat} (h : j ≤ k) : byteLength (s.take j) ≤ byteLength (s.take k) := by
  obtain ⟨rest, hrest⟩ := take_prefix_take_left (l := s) h
  rw [← hrest]
  exact byteLength_le_append _ _

end ClawMessenger.Verified.JsString
