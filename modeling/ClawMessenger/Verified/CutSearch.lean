import Mathlib.Tactic

/-!
# Halving towards the longest cut

A sequence of `n` places is to be cut before the longest beginning that a probe still
accepts, and some cuts are not allowed (`inside`): they lie inside a unit that must stay
whole.  The search halves the window of cuts that remain and, where its middle is such a
cut, moves the middle back by one.

Moving back costs the search its measure.  With the low end of a window of at most two
places inside a unit, the middle falls before the window, and the next window is the same
again.  `halts_iff` says exactly when this does not happen: the longest cut is not followed
by a unit of two places, and where it ends one, it is itself a middle of the halving
(`Meets`).
-/

namespace ClawMessenger.Verified.CutSearch

variable {β : Type}

/-- The cuts that remain, and the last one accepted with what the probe gave for it. -/
structure Window (β : Type) where
  low : Nat
  high : Nat
  tick : Nat
  selected : Option (β × Nat)

def start (n : Nat) : Window β := ⟨1, n, 0, none⟩

section Search

variable (inside : Nat → Bool)

/-- The middle of a window, moved back out of a unit. -/
def middle (low high : Nat) : Nat :=
  if inside ((low + high) / 2) then (low + high) / 2 - 1 else (low + high) / 2

variable (probe : Nat → Nat → Option β)

/-- The search, nothing where the fuel runs out. -/
def search : Nat → Window β → Option (Option (β × Nat))
  | 0, _ => none
  | fuel + 1, w =>
    if w.low ≤ w.high then
      if middle inside w.low w.high < 1 then some w.selected
      else
        match probe w.tick (middle inside w.low w.high) with
        | some b =>
          search fuel ⟨middle inside w.low w.high + 1, w.high, w.tick + 1, some (b, middle inside w.low w.high)⟩
        | none => search fuel ⟨w.low, middle inside w.low w.high - 1, w.tick + 1, w.selected⟩
    else some w.selected

/-- What the search is for: the longest cut that the probe accepts, or nothing. -/
def Longest (n : Nat) : Option (β × Nat) → Prop
  | none => ∀ k, 1 ≤ k → k ≤ n → inside k = false → ∀ t, probe t k = none
  | some (b, k) =>
    (1 ≤ k ∧ k ≤ n ∧ inside k = false ∧ ∃ t, probe t k = some b) ∧
      ∀ j, k < j → j ≤ n → inside j = false → ∀ t, probe t j = none

/-- The halving of a window towards `k` has `k` as one of its middles. -/
inductive Meets (k : Nat) : Nat → Nat → Prop
  | here {low high : Nat} (hwindow : low ≤ high) (hmiddle : middle inside low high = k) : Meets k low high
  | up {low high : Nat} (hwindow : low ≤ high) (hpos : 0 < middle inside low high)
      (hlt : middle inside low high < k) (h : Meets k (middle inside low high + 1) high) : Meets k low high
  | down {low high : Nat} (hwindow : low ≤ high) (hlt : k < middle inside low high)
      (h : Meets k low (middle inside low high - 1)) : Meets k low high

/-- The halving settles on `k`: what follows `k` is one place, and where `k` ends a unit of
two, it is met as a middle. -/
def Settles (n k : Nat) : Prop :=
  k = 0 ∨ inside (k + 1) = false ∧ (inside (k - 1) = true → Meets inside k 1 n)

end Search

/-! ## A probe with a threshold -/

/-- The cuts inside units, and the longest cut accepted: the probe accepts no longer one
and every shorter one, whenever it is asked. -/
structure Threshold (inside : Nat → Bool) (probe : Nat → Nat → Option β) (n k : Nat) : Prop where
  bound : k ≤ n
  whole : inside k = false
  within : ∀ i, inside i = true → 0 < i ∧ i < n
  apart : ∀ i, inside i = true → inside (i - 1) = false ∧ inside (i + 1) = false
  accepts : ∀ t i, 1 ≤ i → i ≤ n → inside i = false → ((probe t i).isSome ↔ i ≤ k)

namespace Threshold

variable {inside : Nat → Bool} {probe : Nat → Nat → Option β} {n k low high : Nat}

theorem middle_whole (h : Threshold inside probe n k) (low high : Nat) : inside (middle inside low high) = false := by
  unfold middle
  by_cases hin : inside ((low + high) / 2) = true
  · rw [if_pos hin]
    exact (h.apart _ hin).1
  · rw [if_neg hin]
    exact Bool.eq_false_iff.mpr hin

theorem middle_le (inside : Nat → Bool) (hwindow : low ≤ high) : middle inside low high ≤ high := by
  unfold middle
  split <;> omega

/-- Only a window of at most two places has its middle moved before it. -/
theorem le_middle (h : inside low = false ∨ low + 1 < high) (hwindow : low ≤ high) : low ≤ middle inside low high := by
  unfold middle
  by_cases hin : inside ((low + high) / 2) = true
  · rw [if_pos hin]
    have hne : (low + high) / 2 ≠ low := by
      intro heq
      rw [heq] at hin
      cases h with
      | inl hout => exact Bool.false_ne_true (hout.symm.trans hin)
      | inr hwide => omega
    omega
  · rw [if_neg hin]
    omega

section

variable (h : Threshold inside probe n k)
include h

theorem rejects {i : Nat} (hpos : 1 ≤ i) (hn : i ≤ n) (hin : inside i = false) (hk : k < i)
    (t : Nat) : probe t i = none := by
  cases hprobe : probe t i with
  | none => rfl
  | some b =>
    have hle : i ≤ k := (h.accepts t i hpos hn hin).mp (by rw [hprobe]; rfl)
    omega

theorem longest_of_zero (hk : k = 0) : Longest inside probe n none := by
  intro i hpos hn hin t
  exact h.rejects hpos hn hin (by omega) t

theorem longest_of_some (hk : 0 < k) {t : Nat} {b : β} (hb : probe t k = some b) :
    Longest inside probe n (some (b, k)) := by
  constructor
  · exact ⟨hk, h.bound, h.whole, t, hb⟩
  · intro i hi hn hin t
    exact h.rejects (by omega) hn hin hi t

/-- The longest cut is the threshold. -/
theorem cut_of_longest (hk : 0 < k) {r : Option (β × Nat)} (hr : Longest inside probe n r) :
    ∃ b, r = some (b, k) := by
  have hsome : (probe 0 k).isSome := (h.accepts 0 k hk h.bound h.whole).mpr le_rfl
  cases r with
  | none =>
    rw [hr k hk h.bound h.whole 0] at hsome
    cases hsome
  | some found =>
    obtain ⟨b, i⟩ := found
    obtain ⟨⟨hpos, hn, hin, t, hb⟩, hlater⟩ := hr
    have hle : i ≤ k := (h.accepts t i hpos hn hin).mp (by rw [hb]; rfl)
    have hge : k ≤ i := by
      by_contra hlt
      rw [hlater k (by omega) h.bound h.whole 0] at hsome
      cases hsome
    exact ⟨b, by rw [le_antisymm hle hge]⟩

end

end Threshold

/-! ## One round -/

/-- Between two rounds: the threshold lies in the window or just before it, and what was
selected is the cut just before the window. -/
structure Sound (probe : Nat → Nat → Option β) (n k : Nat) (w : Window β) : Prop where
  low_pos : 1 ≤ w.low
  low_le : w.low ≤ k + 1
  le_high : k ≤ w.high
  high_le : w.high ≤ n
  selected : w.selected = none ∧ w.low = 1 ∨
    ∃ b t, w.selected = some (b, w.low - 1) ∧ probe t (w.low - 1) = some b ∧ 2 ≤ w.low

variable {inside : Nat → Bool} {probe : Nat → Nat → Option β} {n k : Nat} {w : Window β}

theorem Sound.start (h : k ≤ n) : Sound probe n k (start n) where
  low_pos := le_rfl
  low_le := Nat.le_add_left 1 k
  le_high := h
  high_le := le_rfl
  selected := .inl ⟨rfl, rfl⟩

/-- A window as it is after its middle was accepted. -/
def Window.accept (inside : Nat → Bool) (w : Window β) (b : β) : Window β :=
  ⟨middle inside w.low w.high + 1, w.high, w.tick + 1, some (b, middle inside w.low w.high)⟩

/-- A window as it is after its middle was rejected. -/
def Window.reject (inside : Nat → Bool) (w : Window β) : Window β :=
  ⟨w.low, middle inside w.low w.high - 1, w.tick + 1, w.selected⟩

section Round

variable (fuel : Nat)

theorem search_done (hwindow : w.high < w.low) : search inside probe (fuel + 1) w = some w.selected := by
  unfold search
  rw [if_neg (by omega)]

theorem search_break (hwindow : w.low ≤ w.high) (hmiddle : middle inside w.low w.high = 0) :
    search inside probe (fuel + 1) w = some w.selected := by
  unfold search
  rw [if_pos hwindow, if_pos (by omega)]

theorem search_accept (hwindow : w.low ≤ w.high) (hpos : 0 < middle inside w.low w.high) {b : β}
    (hb : probe w.tick (middle inside w.low w.high) = some b) :
    search inside probe (fuel + 1) w = search inside probe fuel (w.accept inside b) := by
  rw [search, if_pos hwindow, if_neg (by omega), hb]
  rfl

theorem search_reject (hwindow : w.low ≤ w.high) (hpos : 0 < middle inside w.low w.high)
    (hb : probe w.tick (middle inside w.low w.high) = none) :
    search inside probe (fuel + 1) w = search inside probe fuel (w.reject inside) := by
  rw [search, if_pos hwindow, if_neg (by omega), hb]
  rfl

/-- More fuel changes no answer. -/
theorem search_mono {fuel fuel' : Nat} (hle : fuel ≤ fuel') {found : Option (β × Nat)}
    (h : search inside probe fuel w = some found) : search inside probe fuel' w = some found := by
  induction fuel generalizing fuel' w with
  | zero => cases h
  | succ fuel ih =>
    obtain ⟨more, rfl⟩ : ∃ more, fuel' = more + 1 := ⟨fuel' - 1, by omega⟩
    by_cases hwindow : w.low ≤ w.high
    · rw [search, if_pos hwindow] at h ⊢
      by_cases hmiddle : middle inside w.low w.high < 1
      · rw [if_pos hmiddle] at h ⊢
        exact h
      · rw [if_neg hmiddle] at h ⊢
        cases hprobe : probe w.tick (middle inside w.low w.high) <;> rw [hprobe] at h <;>
          exact ih (Nat.le_of_succ_le_succ hle) h
    · rw [search, if_neg hwindow] at h ⊢
      exact h

end Round

section Sound

variable (ht : Threshold inside probe n k) (hs : Sound probe n k w)
include ht hs

/-- A middle up to the threshold is accepted. -/
theorem Sound.accept (hwindow : w.low ≤ w.high) (hpos : 0 < middle inside w.low w.high)
    (hle : middle inside w.low w.high ≤ k) :
    ∃ b, probe w.tick (middle inside w.low w.high) = some b ∧ Sound probe n k (w.accept inside b) := by
  have hmiddle := Threshold.middle_le inside hwindow
  have hn := hs.high_le
  have hsome := (ht.accepts w.tick _ hpos (by omega) (ht.middle_whole w.low w.high)).mpr hle
  obtain ⟨b, hb⟩ := Option.isSome_iff_exists.mp hsome
  refine ⟨b, hb, ?_⟩
  exact {
    low_pos := Nat.le_add_left 1 _
    low_le := Nat.add_le_add_right hle 1
    le_high := hs.le_high
    high_le := hn
    selected := .inr ⟨b, w.tick, rfl, hb, Nat.succ_le_succ hpos⟩ }

/-- A middle after the threshold is rejected. -/
theorem Sound.reject (hwindow : w.low ≤ w.high) (hlt : k < middle inside w.low w.high) :
    probe w.tick (middle inside w.low w.high) = none ∧ Sound probe n k (w.reject inside) := by
  have hmiddle := Threshold.middle_le inside hwindow
  have hn := hs.high_le
  constructor
  · exact ht.rejects (by omega) (by omega) (ht.middle_whole w.low w.high) hlt w.tick
  · exact {
      low_pos := hs.low_pos
      low_le := hs.low_le
      le_high := by
        show k ≤ middle inside w.low w.high - 1
        omega
      high_le := by
        show middle inside w.low w.high - 1 ≤ n
        omega
      selected := hs.selected }

end Sound

/-! ## The halving ends -/

theorem Sound.selected_at (hs : Sound probe n k w) (hk : 0 < k) (hlow : w.low = k + 1) :
    ∃ b t, w.selected = some (b, k) ∧ probe t k = some b := by
  cases hs.selected with
  | inl hnone => omega
  | inr hsome =>
    obtain ⟨b, t, hselected, hb, _⟩ := hsome
    rw [hlow, Nat.add_sub_cancel] at hselected hb
    exact ⟨b, t, hselected, hb⟩

/-- Once the threshold is accepted, the cuts after it are rejected one by one. -/
theorem ends_after (ht : Threshold inside probe n k) (hnext : inside (k + 1) = false) (hs : Sound probe n k w)
    (hlow : w.low = k + 1) : ∃ fuel, search inside probe fuel w = some w.selected := by
  induction hwidth : w.high - k using Nat.strong_induction_on generalizing w with
  | _ width ih =>
    by_cases hwindow : w.low ≤ w.high
    · have hge : w.low ≤ middle inside w.low w.high := by
        apply Threshold.le_middle _ hwindow
        rw [hlow]
        exact .inl hnext
      have hmiddle := Threshold.middle_le inside hwindow
      have hlt : k < middle inside w.low w.high := by omega
      obtain ⟨hnone, hs'⟩ := hs.reject ht hwindow hlt
      have hshorter : (w.reject inside).high - k < width := by
        show middle inside w.low w.high - 1 - k < width
        omega
      obtain ⟨fuel, hfuel⟩ := ih _ hshorter hs' hlow rfl
      refine ⟨fuel + 1, ?_⟩
      rw [search_reject fuel hwindow (by omega) hnone, hfuel]
      rfl
    · exact ⟨1, search_done 0 (by omega)⟩

theorem ends_of_meets (ht : Threshold inside probe n k) (hk : 0 < k) (hnext : inside (k + 1) = false) {low high : Nat}
    (hmeets : Meets inside k low high) :
    ∀ {w : Window β}, w.low = low → w.high = high → Sound probe n k w →
      ∃ fuel b t, search inside probe fuel w = some (some (b, k)) ∧ probe t k = some b := by
  induction hmeets with
  | here hwindow hmiddle =>
    intro w hlow hhigh hs
    subst hlow hhigh
    obtain ⟨b, hb, hs'⟩ := hs.accept ht hwindow (by omega) (by omega)
    have hlow : (w.accept inside b).low = k + 1 := by
      show middle inside w.low w.high + 1 = k + 1
      rw [hmiddle]
    obtain ⟨fuel, hfuel⟩ := ends_after ht hnext hs' hlow
    obtain ⟨b', t, hselected, hb'⟩ := hs'.selected_at hk hlow
    refine ⟨fuel + 1, b', t, ?_, hb'⟩
    rw [search_accept fuel hwindow (by omega) hb, hfuel, hselected]
  | up hwindow hpos hlt _ ih =>
    intro w hlow hhigh hs
    subst hlow hhigh
    obtain ⟨b, hb, hs'⟩ := hs.accept ht hwindow hpos (by omega)
    obtain ⟨fuel, b', t, hfuel, hb'⟩ := ih (w := w.accept inside b) rfl rfl hs'
    exact ⟨fuel + 1, b', t, by rw [search_accept fuel hwindow hpos hb, hfuel], hb'⟩
  | down hwindow hlt _ ih =>
    intro w hlow hhigh hs
    subst hlow hhigh
    obtain ⟨hnone, hs'⟩ := hs.reject ht hwindow hlt
    obtain ⟨fuel, b', t, hfuel, hb'⟩ := ih (w := w.reject inside) rfl rfl hs'
    exact ⟨fuel + 1, b', t, by rw [search_reject fuel hwindow (by omega) hnone, hfuel], hb'⟩

/-- Away from units of two places every halving meets the threshold. -/
theorem meets_of_clear (hk : inside k = false) (hbefore : inside (k - 1) = false) {low high : Nat} (hpos : 1 ≤ low)
    (hlow : low ≤ k) (hhigh : k ≤ high) : Meets inside k low high := by
  induction hwidth : high - low using Nat.strong_induction_on generalizing low high with
  | _ width ih =>
    have hwindow : low ≤ high := by omega
    have hge : low ≤ middle inside low high := by
      apply Threshold.le_middle _ hwindow
      by_cases hwide : low + 1 < high
      · exact .inr hwide
      · have hcases : low = k ∨ low = k - 1 := by omega
        cases hcases with
        | inl heq => exact .inl (heq ▸ hk)
        | inr heq => exact .inl (heq ▸ hbefore)
    have hmiddle := Threshold.middle_le inside hwindow
    rcases Nat.lt_trichotomy (middle inside low high) k with hlt | heq | hgt
    · apply Meets.up hwindow (by omega) hlt
      exact ih (high - (middle inside low high + 1)) (by omega) (by omega) (by omega) hhigh rfl
    · exact Meets.here hwindow heq
    · apply Meets.down hwindow hgt
      exact ih (middle inside low high - 1 - low) (by omega) hpos hlow (by omega) rfl

theorem ends_empty (ht : Threshold inside probe n 0) (hs : Sound probe n 0 w) :
    ∃ fuel, search inside probe fuel w = some none := by
  have hselected : w.selected = none := by
    have hle := hs.low_le
    cases hs.selected with
    | inl hnone => exact hnone.1
    | inr hsome =>
      obtain ⟨_, _, _, _, htwo⟩ := hsome
      omega
  induction hwidth : w.high using Nat.strong_induction_on generalizing w with
  | _ width ih =>
    by_cases hwindow : w.low ≤ w.high
    · by_cases hmiddle : middle inside w.low w.high = 0
      · exact ⟨1, by rw [search_break 0 hwindow hmiddle, hselected]⟩
      · obtain ⟨hnone, hs'⟩ := hs.reject ht hwindow (by omega)
        have hshorter : (w.reject inside).high < width := by
          have hle := Threshold.middle_le inside hwindow
          show middle inside w.low w.high - 1 < width
          omega
        obtain ⟨fuel, hfuel⟩ := ih _ hshorter hs' hselected rfl
        exact ⟨fuel + 1, by rw [search_reject fuel hwindow (by omega) hnone, hfuel]⟩
    · exact ⟨1, by rw [search_done 0 (by omega), hselected]⟩

/-! ## The halving does not end -/

/-- A search that gives the threshold has met it. -/
theorem meets_of_ends (ht : Threshold inside probe n k) {b : β} {fuel : Nat} (hs : Sound probe n k w) (hlow : w.low ≤ k)
    (hend : search inside probe fuel w = some (some (b, k))) : Meets inside k w.low w.high := by
  have hbefore : ∀ {w : Window β}, Sound probe n k w → w.low ≤ k → some w.selected ≠ some (some (b, k)) := by
    intro w hs hlow heq
    have hselected : w.selected = some (b, k) := Option.some.inj heq
    cases hs.selected with
    | inl hnone =>
      rw [hnone.1] at hselected
      cases hselected
    | inr hsome =>
      obtain ⟨b', _, hsel, _, _⟩ := hsome
      rw [hsel] at hselected
      have hcut : w.low - 1 = k := congrArg Prod.snd (Option.some.inj hselected)
      omega
  induction fuel generalizing w with
  | zero => cases hend
  | succ fuel ih =>
    have hhigh := hs.le_high
    have hwindow : w.low ≤ w.high := by omega
    by_cases hmiddle : middle inside w.low w.high = 0
    · rw [search_break fuel hwindow hmiddle] at hend
      exact absurd hend (hbefore hs hlow)
    · rcases Nat.lt_trichotomy (middle inside w.low w.high) k with hlt | heq | hgt
      · obtain ⟨b', hb', hs'⟩ := hs.accept ht hwindow (by omega) (by omega)
        rw [search_accept fuel hwindow (by omega) hb'] at hend
        exact Meets.up hwindow (by omega) hlt (ih hs' hlt hend)
      · exact Meets.here hwindow heq
      · obtain ⟨hnone, hs'⟩ := hs.reject ht hwindow hgt
        rw [search_reject fuel hwindow (by omega) hnone] at hend
        exact Meets.down hwindow hgt (ih hs' hlow hend)

/-- Before a unit of two places the window never closes: its low end is never rejected. -/
theorem nothing_of_open (ht : Threshold inside probe n k) (hnext : inside (k + 1) = true) {fuel : Nat}
    {r : Option (β × Nat)} (hs : Sound probe n k w) (hopen : k < w.high)
    (hend : search inside probe fuel w = some r) : r = none := by
  induction fuel generalizing w with
  | zero => cases hend
  | succ fuel ih =>
    have hlow := hs.low_le
    have hwindow : w.low ≤ w.high := by omega
    by_cases hzero : middle inside w.low w.high = 0
    · rw [search_break fuel hwindow hzero] at hend
      have hone : w.low = 1 := by
        have hpos := hs.low_pos
        unfold middle at hzero
        split at hzero <;> omega
      cases hs.selected with
      | inl hnone =>
        rw [hnone.1] at hend
        exact (Option.some.inj hend).symm
      | inr hsome =>
        obtain ⟨_, _, _, _, htwo⟩ := hsome
        omega
    · by_cases hle : middle inside w.low w.high ≤ k
      · obtain ⟨b, hb, hs'⟩ := hs.accept ht hwindow (by omega) hle
        rw [search_accept fuel hwindow (by omega) hb] at hend
        exact ih hs' hopen hend
      · obtain ⟨hnone, hs'⟩ := hs.reject ht hwindow (by omega)
        rw [search_reject fuel hwindow (by omega) hnone] at hend
        apply ih hs' _ hend
        have hne : middle inside w.low w.high ≠ k + 1 := by
          intro heq
          have hout := ht.middle_whole w.low w.high
          rw [heq, hnext] at hout
          cases hout
        show k < middle inside w.low w.high - 1
        omega

/-! ## Whatever the search gives -/

/-- Also where it is not the longest, the cut was accepted and lies in the window. -/
theorem probed_of_ends {b : β} {fuel cut : Nat}
    (hselected : ∀ b i, w.selected = some (b, i) → 1 ≤ i ∧ i ≤ n ∧ ∃ t, probe t i = some b) (hn : w.high ≤ n)
    (hend : search inside probe fuel w = some (some (b, cut))) : 1 ≤ cut ∧ cut ≤ n ∧ ∃ t, probe t cut = some b := by
  induction fuel generalizing w with
  | zero => cases hend
  | succ fuel ih =>
    by_cases hwindow : w.low ≤ w.high
    · have hmiddle := Threshold.middle_le inside hwindow
      by_cases hzero : middle inside w.low w.high = 0
      · rw [search_break fuel hwindow hzero] at hend
        exact hselected b cut (Option.some.inj hend)
      · cases hprobe : probe w.tick (middle inside w.low w.high) with
        | some found =>
          rw [search_accept fuel hwindow (by omega) hprobe] at hend
          apply ih (w := w.accept inside found) _ hn hend
          intro b i heq
          cases heq
          exact ⟨by omega, by omega, w.tick, hprobe⟩
        | none =>
          rw [search_reject fuel hwindow (by omega) hprobe] at hend
          apply ih (w := w.reject inside) hselected _ hend
          show middle inside w.low w.high - 1 ≤ n
          omega
    · rw [search_done fuel (by omega)] at hend
      exact hselected b cut (Option.some.inj hend)

/-! ## When the search finds the longest cut -/

/-- The search ends with the longest cut exactly where the halving settles on it. -/
theorem halts_iff (ht : Threshold inside probe n k) :
    (∃ fuel r, search inside probe fuel (start n) = some r ∧ Longest inside probe n r) ↔ Settles inside n k := by
  have hs : Sound probe n k (start n) := Sound.start ht.bound
  constructor
  · intro hend
    obtain ⟨fuel, r, hr, hlongest⟩ := hend
    by_cases hk : k = 0
    · exact .inl hk
    · obtain ⟨b, rfl⟩ := ht.cut_of_longest (by omega) hlongest
      refine .inr ⟨?_, fun _ => meets_of_ends ht hs (by show 1 ≤ k; omega) hr⟩
      by_contra hnext
      have hin : inside (k + 1) = true := Bool.eq_true_of_not_eq_false hnext
      have hlt := (ht.within _ hin).2
      have hnone := nothing_of_open ht hin hs (by show k < n; omega) hr
      cases hnone
  · intro hsettles
    by_cases hk : k = 0
    · subst hk
      obtain ⟨fuel, hfuel⟩ := ends_empty ht hs
      exact ⟨fuel, none, hfuel, ht.longest_of_zero rfl⟩
    · obtain ⟨hnext, hmeets⟩ := hsettles.resolve_left hk
      have hmet : Meets inside k 1 n := by
        by_cases hbefore : inside (k - 1) = true
        · exact hmeets hbefore
        · exact meets_of_clear ht.whole (Bool.eq_false_iff.mpr hbefore) le_rfl (by omega) ht.bound
      obtain ⟨fuel, b, t, hfuel, hb⟩ := ends_of_meets ht (by omega) hnext hmet rfl rfl hs
      exact ⟨fuel, some (b, k), hfuel, ht.longest_of_some (by omega) hb⟩

end ClawMessenger.Verified.CutSearch
