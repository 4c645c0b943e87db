import Mathlib

/-!
# Rows of a database table

A table is the list of its rows.  `update` is `UPDATE … SET f WHERE p`, an
insertion appends a row whose key no row has.  `Keyed` says that no two rows
have the same key, which is what a unique constraint enforces: it is kept by an
update that leaves the key alone and by an insertion that has looked for it.

`Grows R` relates two states of a table in which every row lives on, changed as
`R` says; it is how facts about one statement are carried along a run.
-/

namespace ClawMessenger.Verified.Rows

open List

variable {ρ κ : Type*}

/-- `UPDATE … SET f WHERE p`. -/
def update (rows : List ρ) (p : ρ → Bool) (f : ρ → ρ) : List ρ :=
  rows.map fun row => if p row then f row else row

/-- No two rows have the same key. -/
def Keyed (key : ρ → κ) (rows : List ρ) : Prop := (rows.map key).Nodup

variable {p : ρ → Bool} {f : ρ → ρ} {row : ρ}

theorem mem_update {rows : List ρ} :
    row ∈ update rows p f ↔
      (∃ old ∈ rows, p old = true ∧ row = f old) ∨ (row ∈ rows ∧ p row = false) := by
  unfold update
  rw [mem_map]
  constructor
  · rintro ⟨old, hold, heq⟩
    by_cases hp : p old = true
    · rw [if_pos hp] at heq
      exact .inl ⟨old, hold, hp, heq.symm⟩
    · rw [if_neg hp] at heq
      rw [← heq]
      exact .inr ⟨hold, by simpa using hp⟩
  · rintro (⟨old, hold, hp, heq⟩ | ⟨hrow, hp⟩)
    · exact ⟨old, hold, by rw [if_pos hp, heq]⟩
    · refine ⟨row, hrow, ?_⟩
      rw [if_neg]
      rw [hp]
      simp

/-- An update that finds nothing changes nothing. -/
theorem update_of_none {rows : List ρ} (f : ρ → ρ) (h : ∀ row ∈ rows, p row = false) :
    update rows p f = rows := by
  have hsame : ∀ row ∈ rows, (if p row then f row else row) = id row := by
    intro row hrow
    rw [h row hrow]
    simp
  unfold update
  rw [map_congr_left hsame, map_id]

namespace Keyed

variable {key : ρ → κ} {rows : List ρ}

theorem nil : Keyed key ([] : List ρ) := nodup_nil

theorem eq_of_key (h : Keyed key rows) {row' : ρ} (hrow : row ∈ rows) (hrow' : row' ∈ rows)
    (heq : key row = key row') : row = row' :=
  inj_on_of_nodup_map h hrow hrow' heq

theorem map_update (p : ρ → Bool) (hf : ∀ row, p row = true → key (f row) = key row) :
    (update rows p f).map key = rows.map key := by
  unfold update
  rw [map_map]
  apply map_congr_left
  intro row _
  show key (if p row then f row else row) = key row
  by_cases hp : p row = true
  · rw [if_pos hp, hf row hp]
  · rw [if_neg hp]

theorem update (h : Keyed key rows) (p : ρ → Bool)
    (hf : ∀ row, p row = true → key (f row) = key row) : Keyed key (update rows p f) := by
  unfold Keyed
  rw [map_update p hf]
  exact h

theorem insert (h : Keyed key rows) (hnew : ∀ old ∈ rows, key old ≠ key row) :
    Keyed key (rows ++ [row]) := by
  unfold Keyed
  rw [map_append, nodup_append]
  refine ⟨h, nodup_singleton _, ?_⟩
  intro a ha b hb heq
  obtain ⟨old, hold, hkey⟩ := mem_map.mp ha
  rw [map_singleton, mem_singleton] at hb
  apply hnew old hold
  rw [hkey, heq, hb]

end Keyed

/-! ## Rows that live on -/

/-- Every row is still there, changed as `R` says. -/
def Grows (R : ρ → ρ → Prop) (rows rows' : List ρ) : Prop :=
  ∀ row ∈ rows, ∃ row' ∈ rows', R row row'

namespace Grows

variable {R : ρ → ρ → Prop}

theorem refl (hrefl : ∀ row, R row row) (rows : List ρ) : Grows R rows rows :=
  fun row hrow => ⟨row, hrow, hrefl row⟩

theorem trans (htrans : ∀ a b c, R a b → R b c → R a c) {rows rows' rows'' : List ρ}
    (h : Grows R rows rows') (h' : Grows R rows' rows'') : Grows R rows rows'' := by
  intro row hrow
  obtain ⟨row', hrow', hR⟩ := h row hrow
  obtain ⟨row'', hrow'', hR'⟩ := h' row' hrow'
  exact ⟨row'', hrow'', htrans row row' row'' hR hR'⟩

theorem update (hrefl : ∀ row, R row row) {rows : List ρ}
    (hf : ∀ row ∈ rows, p row = true → R row (f row)) : Grows R rows (update rows p f) := by
  intro row hrow
  by_cases hp : p row = true
  · exact ⟨f row, mem_update.mpr (.inl ⟨row, hrow, hp, rfl⟩), hf row hrow hp⟩
  · exact ⟨row, mem_update.mpr (.inr ⟨hrow, by simpa using hp⟩), hrefl row⟩

theorem insert (hrefl : ∀ row, R row row) (rows : List ρ) (new : ρ) :
    Grows R rows (rows ++ [new]) :=
  fun row hrow => ⟨row, mem_append_left _ hrow, hrefl row⟩

theorem mono {R' : ρ → ρ → Prop} (hsub : ∀ a b, R a b → R' a b) {rows rows' : List ρ}
    (h : Grows R rows rows') : Grows R' rows rows' := by
  intro row hrow
  obtain ⟨row', hrow', hR⟩ := h row hrow
  exact ⟨row', hrow', hsub row row' hR⟩

end Grows

end ClawMessenger.Verified.Rows
