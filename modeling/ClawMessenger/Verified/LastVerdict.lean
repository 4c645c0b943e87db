import ClawMessenger.Verified.Rows

/-!
# The last verdict on a key

Rows of a table that have ended say something about keys: some speak for a key,
some against it.  A key is `Condemned` when a row that speaks against it ended
after every row that speaks for it.

A row that says nothing can come and change freely.  When such a row ends last of
all, what it then says decides: `Update.not_condemned`, `Update.condemned` and
`Update.condemned_iff` are its three cases.
-/

namespace ClawMessenger.Verified.LastVerdict

open List

variable {ρ κ : Type*}

/-- When a row ended, and what it says of a key. -/
structure Verdict (ρ κ : Type*) where
  ended : ρ → Option Nat
  good : ρ → κ → Prop
  bad : ρ → κ → Prop

variable {V : Verdict ρ κ}

def Condemned (V : Verdict ρ κ) (rows : List ρ) (k : κ) : Prop :=
  ∃ row ∈ rows, ∃ n, V.ended row = some n ∧ V.bad row k ∧
    ∀ other ∈ rows, ∀ m, V.ended other = some m → V.good other k → m < n

/-- The row says nothing of any key. -/
structure Verdict.Silent (V : Verdict ρ κ) (row : ρ) : Prop where
  good : ∀ k, ¬ V.good row k
  bad : ∀ k, ¬ V.bad row k

/-! ## Rows that say nothing -/

variable {rows : List ρ} {row : ρ}

theorem condemned_append (h : V.Silent row) (k : κ) :
    Condemned V (rows ++ [row]) k ↔ Condemned V rows k := by
  constructor
  · rintro ⟨u, hu, n, hn, hbad, hlast⟩
    rcases mem_append.mp hu with hold | hnew
    · exact ⟨u, hold, n, hn, hbad, fun v hv => hlast v (mem_append_left _ hv)⟩
    · rw [mem_singleton.mp hnew] at hbad
      exact absurd hbad (h.bad k)
  · rintro ⟨u, hu, n, hn, hbad, hlast⟩
    refine ⟨u, mem_append_left _ hu, n, hn, hbad, ?_⟩
    intro v hv m hm hgood
    rcases mem_append.mp hv with hold | hnew
    · exact hlast v hold m hm hgood
    · rw [mem_singleton.mp hnew] at hgood
      exact absurd hgood (h.good k)

theorem condemned_update {p : ρ → Bool} {f : ρ → ρ}
    (hbefore : ∀ row ∈ rows, p row = true → V.Silent row)
    (hafter : ∀ row ∈ rows, p row = true → V.Silent (f row)) (k : κ) :
    Condemned V (Rows.update rows p f) k ↔ Condemned V rows k := by
  constructor
  · rintro ⟨u, hu, n, hn, hbad, hlast⟩
    rcases Rows.mem_update.mp hu with ⟨old, hold, hp, rfl⟩ | ⟨hu, _⟩
    · exact absurd hbad ((hafter old hold hp).bad k)
    · refine ⟨u, hu, n, hn, hbad, ?_⟩
      intro v hv m hm hgood
      by_cases hp : p v = true
      · exact absurd hgood ((hbefore v hv hp).good k)
      · exact hlast v (Rows.mem_update.mpr (.inr ⟨hv, by simpa using hp⟩)) m hm hgood
  · rintro ⟨u, hu, n, hn, hbad, hlast⟩
    have hp : p u = false := by
      by_contra hp
      exact (hbefore u hu (by simpa using hp)).bad k hbad
    refine ⟨u, Rows.mem_update.mpr (.inr ⟨hu, hp⟩), n, hn, hbad, ?_⟩
    intro v hv m hm hgood
    rcases Rows.mem_update.mp hv with ⟨old, hold, hp, rfl⟩ | ⟨hv, _⟩
    · exact absurd hgood ((hafter old hold hp).good k)
    · exact hlast v hv m hm hgood

/-! ## The row that ends last -/

/-- One row, silent so far, ends now. -/
structure Update (V : Verdict ρ κ) (rows : List ρ) (p : ρ → Bool) (f : ρ → ρ) (old : ρ) (now : Nat) : Prop where
  mem : old ∈ rows
  chosen : p old = true
  unique : ∀ row ∈ rows, p row = true → row = old
  silent : V.Silent old
  ended : V.ended (f old) = some now
  before : ∀ row ∈ rows, ∀ m, V.ended row = some m → m < now

namespace Update

variable {rows : List ρ} {p : ρ → Bool} {f : ρ → ρ} {old : ρ} {now : Nat} {k : κ}

section

variable (h : Update V rows p f old now)
include h

theorem mem_iff :
    row ∈ Rows.update rows p f ↔ row = f old ∨ (row ∈ rows ∧ p row = false) := by
  rw [Rows.mem_update]
  constructor
  · rintro (⟨u, hu, hp, rfl⟩ | hother)
    · rw [h.unique u hu hp]
      exact .inl rfl
    · exact .inr hother
  · rintro (rfl | hother)
    · exact .inl ⟨old, h.mem, h.chosen, rfl⟩
    · exact .inr hother

/-- A row that says something is another one. -/
theorem other_of_bad (hrow : row ∈ rows) (hbad : V.bad row k) :
    row ∈ Rows.update rows p f := by
  refine h.mem_iff.mpr (.inr ⟨hrow, ?_⟩)
  by_contra hp
  rw [h.unique row hrow (by simpa using hp)] at hbad
  exact h.silent.bad k hbad

theorem other_of_good (hrow : row ∈ rows) (hgood : V.good row k) :
    row ∈ Rows.update rows p f := by
  refine h.mem_iff.mpr (.inr ⟨hrow, ?_⟩)
  by_contra hp
  rw [h.unique row hrow (by simpa using hp)] at hgood
  exact h.silent.good k hgood

theorem not_condemned (hgood : V.good (f old) k) :
    ¬ Condemned V (Rows.update rows p f) k := by
  rintro ⟨u, hu, n, hn, _, hlast⟩
  have hlater := hlast (f old) (h.mem_iff.mpr (.inl rfl)) now h.ended hgood
  rcases h.mem_iff.mp hu with rfl | ⟨hu, _⟩
  · rw [h.ended] at hn
    cases hn
    omega
  · have := h.before u hu n hn
    omega

theorem condemned (hgood : ¬ V.good (f old) k) (hbad : V.bad (f old) k) :
    Condemned V (Rows.update rows p f) k := by
  refine ⟨f old, h.mem_iff.mpr (.inl rfl), now, h.ended, hbad, ?_⟩
  intro v hv m hm hv_good
  rcases h.mem_iff.mp hv with rfl | ⟨hv, _⟩
  · exact absurd hv_good hgood
  · exact h.before v hv m hm

theorem condemned_iff (hgood : ¬ V.good (f old) k) (hbad : ¬ V.bad (f old) k) :
    Condemned V (Rows.update rows p f) k ↔ Condemned V rows k := by
  constructor
  · rintro ⟨u, hu, n, hn, hu_bad, hlast⟩
    rcases h.mem_iff.mp hu with rfl | ⟨hu, _⟩
    · exact absurd hu_bad hbad
    · exact ⟨u, hu, n, hn, hu_bad, fun v hv m hm hv_good => hlast v (h.other_of_good hv hv_good) m hm hv_good⟩
  · rintro ⟨u, hu, n, hn, hu_bad, hlast⟩
    refine ⟨u, h.other_of_bad hu hu_bad, n, hn, hu_bad, ?_⟩
    intro v hv m hm hv_good
    rcases h.mem_iff.mp hv with rfl | ⟨hv, _⟩
    · exact absurd hv_good hgood
    · exact hlast v hv m hm hv_good

end

end Update

end ClawMessenger.Verified.LastVerdict
