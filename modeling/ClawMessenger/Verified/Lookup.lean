import ClawMessenger.Verified.OrderedMap

/-!
# What an entry of a changed map was before

Invariants over the entries of a map are carried over an update by asking, for
each entry of the new map, where it comes from, and what order the entries of
the new map have.
-/

namespace ClawMessenger.Verified.OrderedMap

variable {κ α : Type*} [DecidableEq κ] {m : OrderedMap κ α} {key k : κ} {value v : α}

theorem get?_set_cases (h : (m.set key value).get? k = some v) :
    (k = key ∧ v = value) ∨ (k ≠ key ∧ m.get? k = some v) := by
  rw [get?_set] at h
  by_cases hk : k = key
  · rw [if_pos hk, Option.some.injEq] at h
    exact .inl ⟨hk, h.symm⟩
  · rw [if_neg hk] at h
    exact .inr ⟨hk, h⟩

/-- What holds of all entries still does after an update to an entry it holds of. -/
theorem forall_set {P : κ → α → Prop} (h : ∀ k v, m.get? k = some v → P k v) (hnew : P key value) (k : κ) (v : α)
    (hget : (m.set key value).get? k = some v) : P k v := by
  rcases get?_set_cases hget with ⟨hk, hv⟩ | ⟨_, hold⟩
  · rw [hk, hv]
    exact hnew
  · exact h k v hold

theorem exists_set (key : κ) (value : α) (h : ∃ v, m.get? k = some v) : ∃ v, (m.set key value).get? k = some v := by
  rw [get?_set]
  split
  · exact ⟨_, rfl⟩
  · exact h

theorem get?_erase_cases (h : (m.erase key).get? k = some v) : k ≠ key ∧ m.get? k = some v := by
  by_cases hk : k = key
  · rw [hk, get?_erase_self] at h
    cases h
  · rw [get?_erase_ne _ hk] at h
    exact ⟨hk, h⟩

theorem mem_keys_iff_has : key ∈ m.keys ↔ m.has key = true := by
  rw [has, Option.isSome_iff_ne_none, ne_eq, get?_eq_none_iff, not_not]

/-- A key of its own goes to the end. -/
theorem entries_set_of_fresh (value : α) (h : m.get? key = none) :
    (m.set key value).entries = m.entries ++ [(key, value)] := by
  show setEntries m.entries key value = m.entries ++ [(key, value)]
  have hkey : ∀ e ∈ m.entries, e.1 ≠ key := by
    intro e he heq
    have hnone := get?_eq_none_iff.mp h
    exact hnone (List.mem_map.mpr ⟨e, he, heq⟩)
  generalize m.entries = entries at hkey
  induction entries with
  | nil => rfl
  | cons e rest ih =>
    obtain ⟨k, v⟩ := e
    have hne : k ≠ key := hkey (k, v) List.mem_cons_self
    have hrest : ∀ e ∈ rest, e.1 ≠ key := fun e he => hkey e (List.mem_cons_of_mem _ he)
    unfold setEntries
    rw [if_neg hne, ih hrest]
    rfl

end ClawMessenger.Verified.OrderedMap
