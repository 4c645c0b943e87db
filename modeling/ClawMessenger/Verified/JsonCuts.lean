import ClawMessenger.Verified.JsonLimits
import ClawMessenger.Verified.TextCuts

/-!
# Quoting the beginnings of a text

A cut of a well-formed text is inside a pair exactly after a high surrogate (`insidePair`).
Any other cut gives a text that is well formed again, and quoting grows strictly from one
such cut to the next (`byteLength_quote_take_lt`).
-/

namespace ClawMessenger.Verified.JsString

/-! ## Surrogates of a well-formed text -/

variable {u : UInt16}

theorem not_high_of_low (h : isLowSurrogate u = true) : isHighSurrogate u = false := by
  unfold isLowSurrogate at h
  unfold isHighSurrogate
  rw [Bool.and_eq_true, decide_eq_true_eq, decide_eq_true_eq] at h
  rw [Bool.and_eq_false_iff, decide_eq_false_iff_not, decide_eq_false_iff_not]
  omega

theorem not_high_of_scalar (h : (!isSurrogatePoint u.toNat) = true) :
    isHighSurrogate u = false := by
  unfold isSurrogatePoint at h
  unfold isHighSurrogate
  rw [Bool.not_eq_true', Bool.and_eq_false_iff, decide_eq_false_iff_not, decide_eq_false_iff_not] at h
  rw [Bool.and_eq_false_iff, decide_eq_false_iff_not, decide_eq_false_iff_not]
  omega

variable {s : JsString}

/-- In a well-formed text a low surrogate follows every high one. -/
theorem low_of_high (h : wellFormed s = true) {i : Nat} (hu : s[i]? = some u)
    (hhigh : isHighSurrogate u = true) : ∃ v, s[i + 1]? = some v ∧ isLowSurrogate v = true := by
  unfold wellFormed at h
  induction s using codePoints.induct generalizing i with
  | case1 => cases hu
  | case2 w =>
    simp only [codePoints, List.all_cons, List.all_nil, Bool.and_true] at h
    cases i with
    | zero =>
      cases hu
      exact absurd hhigh (Bool.eq_false_iff.mp (not_high_of_scalar h))
    | succ i => cases hu
  | case3 w v rest hpair ih =>
    rw [codePoints, if_pos hpair, List.all_cons, Bool.and_eq_true] at h
    rw [Bool.and_eq_true] at hpair
    cases i with
    | zero => exact ⟨v, rfl, hpair.2⟩
    | succ i =>
      cases i with
      | zero =>
        cases hu
        exact absurd hhigh (Bool.eq_false_iff.mp (not_high_of_low hpair.2))
      | succ i => exact ih h.2 hu
  | case4 w v rest hpair ih =>
    rw [codePoints, if_neg hpair, List.all_cons, Bool.and_eq_true] at h
    cases i with
    | zero =>
      cases hu
      exact absurd hhigh (Bool.eq_false_iff.mp (not_high_of_scalar h.1))
    | succ i => exact ih h.2 hu

theorem closed_of_wellFormed (h : wellFormed s = true) : Closed s := by
  intro u hu
  by_contra hhigh
  rw [List.getLast?_eq_getElem?] at hu
  obtain ⟨v, hv, _⟩ := low_of_high h hu (Bool.eq_true_of_not_eq_false hhigh)
  have hlt := (List.getElem?_eq_some_iff.mp hv).1
  omega

/-! ## Cuts inside a pair -/

/-- `k < s.length && /[\uD800-\uDBFF]/.test(s[k - 1])`. -/
def insidePair (s : JsString) (k : Nat) : Bool :=
  decide (0 < k ∧ k < s.length) && (s[k - 1]?).any isHighSurrogate

variable {k : Nat}

theorem insidePair_iff :
    insidePair s k = true ↔ (0 < k ∧ k < s.length) ∧ ∃ u, s[k - 1]? = some u ∧ isHighSurrogate u = true := by
  unfold insidePair
  rw [Bool.and_eq_true, decide_eq_true_eq, Option.any_eq_true]

theorem insidePair_zero (s : JsString) : insidePair s 0 = false := rfl

/-- The cuts on both sides of a cut inside a pair are outside. -/
theorem insidePair_apart (h : wellFormed s = true) (hin : insidePair s k = true) :
    insidePair s (k - 1) = false ∧ insidePair s (k + 1) = false := by
  obtain ⟨⟨hpos, hlt⟩, u, hu, hhigh⟩ := insidePair_iff.mp hin
  obtain ⟨v, hv, hlow⟩ := low_of_high h hu hhigh
  rw [Nat.sub_add_cancel hpos] at hv
  constructor
  · rw [Bool.eq_false_iff]
    intro hbefore
    obtain ⟨⟨hpos', _⟩, w, hw, hhigh'⟩ := insidePair_iff.mp hbefore
    obtain ⟨x, hx, hlow'⟩ := low_of_high h hw hhigh'
    rw [Nat.sub_add_cancel hpos', hu] at hx
    cases hx
    exact absurd hhigh (Bool.eq_false_iff.mp (not_high_of_low hlow'))
  · rw [Bool.eq_false_iff]
    intro hafter
    obtain ⟨_, w, hw, hhigh'⟩ := insidePair_iff.mp hafter
    rw [Nat.add_sub_cancel, hv] at hw
    cases hw
    exact absurd hhigh' (Bool.eq_false_iff.mp (not_high_of_low hlow))

theorem closed_take (h : wellFormed s = true) (hout : insidePair s k = false) :
    Closed (s.take k) := by
  by_cases hlt : k < s.length
  · intro u hu
    by_contra hhigh
    rw [List.getLast?_eq_getElem?, List.length_take, Nat.min_eq_left (by omega)] at hu
    by_cases hzero : k = 0
    · subst hzero
      cases hu
    · rw [List.getElem?_take_of_lt (by omega)] at hu
      have hin : insidePair s k = true :=
        insidePair_iff.mpr ⟨⟨by omega, hlt⟩, u, hu, Bool.eq_true_of_not_eq_false hhigh⟩
      exact Bool.false_ne_true (hout.symm.trans hin)
  · rw [List.take_of_length_le (by omega)]
    exact closed_of_wellFormed h

theorem wellFormed_take (h : wellFormed s = true) (hout : insidePair s k = false) :
    wellFormed (s.take k) = true := by
  have happ := wellFormed_append (s.take k) (s.drop k) (closed_take h hout)
  rw [List.take_append_drop, h] at happ
  exact (Bool.and_eq_true_iff.mp happ.symm).1

end ClawMessenger.Verified.JsString

namespace ClawMessenger.Verified.Json

open Verified.JsString List

/-! ## Quoting -/

theorem escape_append (t : JsString) (hs : Closed s) : escape (s ++ t) = escape s ++ escape t := by
  induction s using escape.induct with
  | case1 => rfl
  | case2 u =>
    have hu : isHighSurrogate u = false := hs u rfl
    cases t with
    | nil => rw [append_nil, escape, escape, append_nil]
    | cons v rest =>
      have hpair : ¬ (isHighSurrogate u && isLowSurrogate v) = true := by
        rw [hu, Bool.false_and]
        exact Bool.false_ne_true
      show escape (u :: v :: rest) = escapeUnit u ++ escape (v :: rest)
      rw [escape, if_neg hpair]
  | case3 u v rest hpair ih =>
    have hrest : Closed rest := by
      intro w hw
      apply hs w
      rw [getLast?_cons_cons, getLast?_cons, hw]
      rfl
    rw [cons_append, cons_append, escape, if_pos hpair, escape, if_pos hpair, ih hrest]
    rfl
  | case4 u v rest hpair ih =>
    have hrest : Closed (v :: rest) := by
      intro w hw
      apply hs w
      rw [getLast?_cons_cons]
      exact hw
    have ih' := ih hrest
    rw [cons_append] at ih'
    rw [cons_append, cons_append, escape, if_neg hpair, escape, if_neg hpair, ih', append_assoc]

theorem byteLength_pos (h : s ≠ []) : 0 < byteLength s := by
  rw [byteLength_eq_sum]
  have hpoints : codePoints s ≠ [] := by
    cases s with
    | nil => exact absurd rfl h
    | cons u rest =>
      cases rest with
      | nil =>
        rw [codePoints]
        exact cons_ne_nil _ _
      | cons v rest =>
        rw [codePoints]
        split <;> exact cons_ne_nil _ _
  obtain ⟨n, rest, heq⟩ := exists_cons_of_ne_nil hpoints
  rw [heq, map_cons, sum_cons]
  have hpos := pointBytes_pos n
  omega

theorem byteLength_quote (s : JsString) : byteLength (quote s) = byteLength (escape s) + 2 := by
  rw [quote, byteLength_mark (by decide), byteLength_append _ _ (escape_closed s), byteLength_mark (by decide),
    byteLength_nil]
  omega

/-- Quoting grows strictly between two cuts of which the first is not inside a pair. -/
theorem byteLength_quote_take_lt (h : wellFormed s = true) {j : Nat}
    (hout : insidePair s j = false) (hlt : j < k) (hle : k ≤ s.length) :
    byteLength (quote (s.take j)) < byteLength (quote (s.take k)) := by
  have hsplit : s.take k = s.take j ++ (s.take k).drop j := by
    have hboth := take_append_drop j (s.take k)
    rw [take_take, Nat.min_eq_left (le_of_lt hlt)] at hboth
    exact hboth.symm
  have hrest : (s.take k).drop j ≠ [] := by
    rw [← length_pos_iff, length_drop, length_take]
    omega
  have hmore := byteLength_escape_ge ((s.take k).drop j)
  have hpos := byteLength_pos hrest
  rw [byteLength_quote, byteLength_quote, hsplit, escape_append _ (closed_take h hout),
    byteLength_append _ _ (escape_closed _)]
  omega

end ClawMessenger.Verified.Json
