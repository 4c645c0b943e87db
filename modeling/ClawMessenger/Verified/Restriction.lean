import ClawMessenger.Verified.Lookup

/-!
# Restrictions of ordered maps

`n.Extends m` says that `m` is what `n` holds at the keys of `m`, in the same
order.  It is how a copy on disk relates to the one in memory when some entries
of the copy are no longer needed: whatever selects among the keys of `m` selects
the same entries from both (`Extends.filter_eq`).
-/

namespace ClawMessenger.Verified

open List

namespace OrderedMap

variable {κ α : Type*}

/-! ## Changing the values -/

/-- Every value replaced, the keys and their order kept. -/
def mapValues {β : Type*} (m : OrderedMap κ α) (f : α → β) : OrderedMap κ β where
  entries := m.entries.map fun e => (e.1, f e.2)
  nodup := by
    have hkeys : (m.entries.map fun e => (e.1, f e.2)).map Prod.fst = m.entries.map Prod.fst := by
      rw [List.map_map]
      rfl
    rw [hkeys]
    exact m.nodup

variable {m : OrderedMap κ α} {keep : κ → α → Bool}

theorem mapValues_eq_self {f : α → α} (h : ∀ e ∈ m.entries, f e.2 = e.2) :
    m.mapValues f = m := by
  apply ext_entries
  calc
    m.entries.map (fun e => (e.1, f e.2)) = m.entries.map id := by
      apply map_congr_left
      intro e he
      rw [h e he]
      rfl
    _ = m.entries := map_id _

/-! ## Restrictions -/

theorem filter_filter (m : OrderedMap κ α) (keep keep' : κ → α → Bool) :
    (m.filter keep').filter keep = m.filter fun k v => keep k v && keep' k v := by
  apply ext_entries
  show (m.entries.filter fun e => keep' e.1 e.2).filter (fun e => keep e.1 e.2) = _
  rw [List.filter_filter]
  rfl

theorem filter_congr {keep' : κ → α → Bool}
    (h : ∀ e ∈ m.entries, keep e.1 e.2 = keep' e.1 e.2) : m.filter keep = m.filter keep' := by
  apply ext_entries
  exact List.filter_congr h

theorem filter_eq_self (h : ∀ e ∈ m.entries, keep e.1 e.2 = true) : m.filter keep = m := by
  apply ext_entries
  exact List.filter_eq_self.mpr h

theorem filter_of_size_eq (h : (m.filter keep).size = m.size) : m.filter keep = m :=
  filter_eq_self (length_filter_eq_length_iff.mp h)

variable [DecidableEq κ]

variable {key : κ}

theorem has_iff :
    m.has key = true ↔ ∃ value, m.get? key = some value := by
  rw [has, Option.isSome_iff_exists]

theorem has_of_mem {e : κ × α} (h : e ∈ m.entries) : m.has e.1 = true :=
  has_iff.mpr ⟨e.2, get?_eq_some_iff.mpr h⟩

/-- `m` is what `n` holds at the keys of `m`. -/
def Extends (n m : OrderedMap κ α) : Prop := (n.filter fun key _ => m.has key) = m

theorem Extends.refl (m : OrderedMap κ α) : m.Extends m := filter_eq_self fun _ he => has_of_mem he

variable {n : OrderedMap κ α}

theorem Extends.get? (h : n.Extends m) {value : α} (hget : m.get? key = some value) :
    n.get? key = some value := by
  rw [← h, get?_filter, Option.filter_eq_some_iff] at hget
  exact hget.1

/-- Whatever keeps keys of `m` only does not tell the two apart. -/
theorem Extends.filter_eq (h : n.Extends m)
    (hkeep : ∀ key value, keep key value = true → m.has key = true) :
    n.filter keep = m.filter keep := by
  have hsame : (n.filter fun key value => keep key value && m.has key) = n.filter keep := by
    apply filter_congr
    intro e _
    cases hk : keep e.1 e.2 with
    | false => rfl
    | true => rw [hkeep _ _ hk, Bool.and_self]
  calc
    n.filter keep = (n.filter fun key _ => m.has key).filter keep := by
      rw [filter_filter, hsame]
    _ = m.filter keep := by rw [h]

/-- A further entry under a key of its own. -/
theorem Extends.set_fresh (value : α) (h : m.get? key = none) :
    (m.set key value).Extends m := by
  apply ext_entries
  show ((m.set key value).entries.filter fun e => m.has e.1) = m.entries
  rw [entries_set_of_fresh value h, List.filter_append]
  have hself : (m.entries.filter fun e => m.has e.1) = m.entries :=
    List.filter_eq_self.mpr fun e he => has_of_mem he
  rw [hself]
  simp [has, h]

end OrderedMap

end ClawMessenger.Verified
