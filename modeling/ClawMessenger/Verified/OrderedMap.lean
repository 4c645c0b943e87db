import Mathlib

/-!
# Insertion-ordered maps

`OrderedMap` is the JavaScript `Map`, and equally an object used as a
dictionary: a list of entries in insertion order in which no key occurs
twice.  Setting a present key keeps its place, setting a fresh one appends it,
and deleting while iterating is filtering.

Distinctness of keys is a field of the structure, so looking a key up and
being an entry are the same thing (`get?_eq_some_iff`); every other lookup
lemma follows from the one for its operation.
-/

namespace ClawMessenger.Verified

open List


structure OrderedMap (κ α : Type*) where
  entries : List (κ × α)
  nodup : (entries.map Prod.fst).Nodup

namespace OrderedMap

variable {κ α : Type*}

theorem ext_entries {m m' : OrderedMap κ α} (h : m.entries = m'.entries) : m = m' := by
  cases m
  cases m'
  simpa using h

def empty : OrderedMap κ α := ⟨[], List.nodup_nil⟩

instance : EmptyCollection (OrderedMap κ α) := ⟨empty⟩

instance : Inhabited (OrderedMap κ α) := ⟨empty⟩

def size (m : OrderedMap κ α) : Nat := m.entries.length

def keys (m : OrderedMap κ α) : List κ := m.entries.map Prod.fst

def values (m : OrderedMap κ α) : List α := m.entries.map Prod.snd

/-- Keep the entries that satisfy a test. -/
def filter (m : OrderedMap κ α) (keep : κ → α → Bool) : OrderedMap κ α where
  entries := m.entries.filter fun e => keep e.1 e.2
  nodup := (List.filter_sublist.map Prod.fst).nodup m.nodup

section DecidableEq

variable [DecidableEq κ]

def get? (m : OrderedMap κ α) (key : κ) : Option α := m.entries.lookup key

def has (m : OrderedMap κ α) (key : κ) : Bool := (m.get? key).isSome

/-- The entries after assigning a key. -/
def setEntries (entries : List (κ × α)) (key : κ) (value : α) : List (κ × α) :=
  match entries with
  | [] => [(key, value)]
  | e :: rest => if e.1 = key then (key, value) :: rest else e :: setEntries rest key value

variable {k key : κ} {value : α} {m : OrderedMap κ α}

variable {entries : List (κ × α)}

theorem mem_keys_setEntries (h : k ∈ (setEntries entries key value).map Prod.fst) :
    k = key ∨ k ∈ entries.map Prod.fst := by
  induction entries with
  | nil => simpa [setEntries] using h
  | cons e rest ih =>
    unfold setEntries at h
    split at h
    · simp only [map_cons, mem_cons] at h ⊢
      tauto
    · simp only [map_cons, mem_cons] at h ⊢
      rcases h with h | h
      · exact .inr (.inl h)
      · rcases ih h with h | h
        · exact .inl h
        · exact .inr (.inr h)

theorem nodup_setEntries (h : (entries.map Prod.fst).Nodup) (key : κ) (value : α) :
    ((setEntries entries key value).map Prod.fst).Nodup := by
  induction entries with
  | nil => simp [setEntries]
  | cons e rest ih =>
    rw [map_cons, nodup_cons] at h
    unfold setEntries
    split
    · next heq =>
        rw [map_cons, nodup_cons]
        exact ⟨heq ▸ h.1, h.2⟩
    · next hne =>
        rw [map_cons, nodup_cons]
        refine ⟨fun hmem => ?_, ih h.2⟩
        rcases mem_keys_setEntries hmem with heq | hmem
        · exact hne heq
        · exact h.1 hmem

def set (m : OrderedMap κ α) (key : κ) (value : α) : OrderedMap κ α where
  entries := setEntries m.entries key value
  nodup := nodup_setEntries m.nodup key value

def erase (m : OrderedMap κ α) (key : κ) : OrderedMap κ α := m.filter fun k _ => k ≠ key

/-! ## Lookups -/

theorem get?_eq_some_iff :
    m.get? key = some value ↔ (key, value) ∈ m.entries := by
  obtain ⟨entries, hnd⟩ := m
  simp only [get?]
  induction entries with
  | nil => simp
  | cons e rest ih =>
    obtain ⟨k, v⟩ := e
    rw [map_cons, nodup_cons] at hnd
    rw [lookup_cons]
    by_cases hk : key = k
    · subst hk
      simp only [beq_self_eq_true, Option.some.injEq, mem_cons, Prod.mk.injEq, true_and]
      constructor
      · rintro rfl
        exact .inl rfl
      · rintro (h | h)
        · exact h.symm
        · exact absurd (mem_map.mpr ⟨_, h, rfl⟩) hnd.1
    · have hbeq : (key == k) = false := by simpa using hk
      simp only [hbeq, ih hnd.2, mem_cons, Prod.mk.injEq, hk, false_and, false_or]

theorem get?_eq_none_iff :
    m.get? key = none ↔ key ∉ m.keys := by
  rw [keys, Option.eq_none_iff_forall_ne_some]
  constructor
  · intro h hmem
    obtain ⟨⟨k, v⟩, hkv, rfl⟩ := mem_map.mp hmem
    exact h v (get?_eq_some_iff.mpr hkv)
  · intro h v hv
    exact h (mem_map.mpr ⟨_, get?_eq_some_iff.mp hv, rfl⟩)

@[simp] theorem get?_empty (key : κ) : (∅ : OrderedMap κ α).get? key = none := rfl

theorem mem_setEntries_iff (hnd : (entries.map Prod.fst).Nodup) {v : α} :
    (k, v) ∈ setEntries entries key value ↔
      (k = key ∧ v = value) ∨ (k ≠ key ∧ (k, v) ∈ entries) := by
  induction entries with
  | nil =>
    simp [setEntries]
  | cons e rest ih =>
    obtain ⟨k', v'⟩ := e
    rw [map_cons, nodup_cons] at hnd
    unfold setEntries
    split
    · next heq =>
        dsimp only at heq
        subst heq
        have hfresh : k ≠ k' ∨ (k, v) ∉ rest := by
          by_cases hk : k = k'
          · subst hk
            exact .inr fun h => hnd.1 (mem_map.mpr ⟨_, h, rfl⟩)
          · exact .inl hk
        simp only [mem_cons, Prod.mk.injEq]
        tauto
    · next hne =>
        dsimp only at hne
        simp only [mem_cons, Prod.mk.injEq, ih hnd.2]
        constructor
        · rintro (⟨rfl, rfl⟩ | h | h)
          · exact .inr ⟨hne, .inl ⟨rfl, rfl⟩⟩
          · exact .inl h
          · exact .inr ⟨h.1, .inr h.2⟩
        · rintro (h | ⟨h1, h2 | h2⟩)
          · exact .inr (.inl h)
          · exact .inl h2
          · exact .inr (.inr ⟨h1, h2⟩)

theorem get?_set (m : OrderedMap κ α) (key k : κ) (value : α) :
    (m.set key value).get? k = if k = key then some value else m.get? k := by
  refine Option.ext fun v => ?_
  rw [get?_eq_some_iff]
  show (k, v) ∈ setEntries m.entries key value ↔ _
  rw [mem_setEntries_iff m.nodup]
  split
  · next h => simp [h, eq_comm]
  · next h => simp [h, get?_eq_some_iff]

@[simp] theorem get?_set_self (m : OrderedMap κ α) (key : κ) (value : α) :
    (m.set key value).get? key = some value := by
  rw [get?_set, if_pos rfl]

theorem get?_set_ne (m : OrderedMap κ α) (value : α) (h : k ≠ key) :
    (m.set key value).get? k = m.get? k := by
  rw [get?_set, if_neg h]

theorem get?_filter (m : OrderedMap κ α) (keep : κ → α → Bool) (key : κ) :
    (m.filter keep).get? key = (m.get? key).filter (keep key) := by
  refine Option.ext fun v => ?_
  rw [get?_eq_some_iff, Option.filter_eq_some_iff, get?_eq_some_iff]
  simp [filter]

@[simp] theorem get?_erase_self (m : OrderedMap κ α) (key : κ) : (m.erase key).get? key = none := by
  rw [erase, get?_filter]
  simp

theorem get?_erase_ne (m : OrderedMap κ α) (h : k ≠ key) :
    (m.erase key).get? k = m.get? k := by
  rw [erase, get?_filter]
  cases m.get? k <;> simp [h]

theorem has_eq_false_iff : m.has key = false ↔ m.get? key = none := by
  simp [has]

theorem mem_entries_set_iff {e : κ × α} :
    e ∈ (m.set key value).entries ↔ e = (key, value) ∨ (e.1 ≠ key ∧ e ∈ m.entries) := by
  obtain ⟨k, v⟩ := e
  show (k, v) ∈ setEntries m.entries key value ↔ _
  rw [mem_setEntries_iff m.nodup, Prod.mk.injEq]

/-- Assigning keeps a labelling of the entries injective if the new label is
none of another key's. -/
theorem nodup_map_set {β : Type*} {g : κ × α → β} (h : (m.entries.map g).Nodup)
    (hnew : ∀ e ∈ m.entries, e.1 ≠ key → g e ≠ g (key, value)) :
    ((m.set key value).entries.map g).Nodup := by
  have hentries : (m.set key value).entries.Nodup := (m.set key value).nodup.of_map
  rw [nodup_map_iff_inj_on hentries]
  intro a ha b hb hab
  rcases mem_entries_set_iff.mp ha with rfl | ⟨hne, ha⟩
  · rcases mem_entries_set_iff.mp hb with rfl | ⟨hne', hb⟩
    · rfl
    · exact absurd hab.symm (hnew b hb hne')
  · rcases mem_entries_set_iff.mp hb with rfl | ⟨_, hb⟩
    · exact absurd hab (hnew a ha hne)
    · exact inj_on_of_nodup_map h ha hb hab

/-! ## Sizes -/

theorem size_set (m : OrderedMap κ α) (key : κ) (value : α) :
    (m.set key value).size = if m.has key then m.size else m.size + 1 := by
  have hlen : ∀ entries : List (κ × α), (setEntries entries key value).length
      = if (entries.lookup key).isSome then entries.length else entries.length + 1 := by
    intro entries
    induction entries with
    | nil => simp [setEntries]
    | cons e rest ih =>
      obtain ⟨k, v⟩ := e
      rw [lookup_cons]
      unfold setEntries
      by_cases hk : k = key
      · simp [hk]
      · have hbeq : (key == k) = false := by simpa using fun h => hk h.symm
        simp only [hk, if_false, length_cons, ih, hbeq]
        split <;> rfl
  exact hlen m.entries

/-- A map has as many entries as keys that look up to something. -/
theorem size_eq_card {S : Finset κ}
    (h : ∀ k, (m.get? k).isSome = true ↔ k ∈ S) : m.size = S.card := by
  have hkeys : m.keys.toFinset = S := by
    ext k
    rw [mem_toFinset, ← h k, Option.isSome_iff_ne_none, ne_eq, get?_eq_none_iff, not_not]
  have hcard : m.keys.toFinset.card = m.keys.length := toFinset_card_of_nodup m.nodup
  rw [← hkeys, hcard]
  simp [size, keys]

/-! ## Assigning and deleting the same key -/

theorem set_set (m : OrderedMap κ α) (key : κ) (a b : α) :
    (m.set key a).set key b = m.set key b := by
  have hset : ∀ entries : List (κ × α),
      setEntries (setEntries entries key a) key b = setEntries entries key b := by
    intro entries
    induction entries with
    | nil => simp [setEntries]
    | cons e rest ih =>
      by_cases hk : e.1 = key
      · simp [setEntries, hk]
      · simp [setEntries, hk, ih]
  exact ext_entries (hset m.entries)

/-- Writing what is there already changes nothing. -/
theorem set_of_get? (h : m.get? key = some value) :
    m.set key value = m := by
  have hentries : ∀ entries : List (κ × α), entries.lookup key = some value →
      setEntries entries key value = entries := by
    intro entries
    induction entries with
    | nil => simp
    | cons e rest ih =>
      obtain ⟨k, v⟩ := e
      intro hlookup
      rw [lookup_cons] at hlookup
      by_cases hk : k = key
      · simp only [hk, beq_self_eq_true, Option.some.injEq] at hlookup
        simp [setEntries, hk, hlookup]
      · have hbeq : (key == k) = false := by simpa using fun heq => hk heq.symm
        rw [hbeq] at hlookup
        simp only [setEntries, if_neg hk, ih hlookup]
  exact ext_entries (hentries m.entries h)

theorem erase_of_get?_none (h : m.get? key = none) :
    m.erase key = m := by
  apply ext_entries
  show m.entries.filter _ = m.entries
  rw [filter_eq_self]
  intro e he
  have hne : e.1 ≠ key := by
    intro heq
    have hget : m.get? e.1 = some e.2 := get?_eq_some_iff.mpr he
    rw [heq, h] at hget
    cases hget
  simpa using hne

theorem erase_set (m : OrderedMap κ α) (key : κ) (value : α) :
    (m.set key value).erase key = m.erase key := by
  have herase : ∀ entries : List (κ × α),
      (setEntries entries key value).filter (fun e => decide (e.1 ≠ key)) =
        entries.filter fun e => decide (e.1 ≠ key) := by
    intro entries
    induction entries with
    | nil => simp [setEntries]
    | cons e rest ih =>
      by_cases hk : e.1 = key
      · simp [setEntries, hk]
      · simp only [setEntries, if_neg hk, filter_cons, ih]
  exact ext_entries (herase m.entries)

/-! ## Totals -/

omit [DecidableEq κ] in
/-- The weights of all values together. -/
def total (m : OrderedMap κ α) (weight : α → Nat) : Nat := (m.entries.map fun e => weight e.2).sum

/-- The weight of a key's value, nothing for an absent key. -/
def weightAt (m : OrderedMap κ α) (weight : α → Nat) (key : κ) : Nat :=
  ((m.get? key).map weight).getD 0

theorem weightAt_of_get? (weight : α → Nat)
    (h : m.get? key = some value) : m.weightAt weight key = weight value := by
  rw [weightAt, h]
  rfl

theorem weightAt_of_get?_none (weight : α → Nat)
    (h : m.get? key = none) : m.weightAt weight key = 0 := by
  rw [weightAt, h]
  rfl

theorem total_set (m : OrderedMap κ α) (weight : α → Nat) (key : κ) (value : α) :
    (m.set key value).total weight + m.weightAt weight key = m.total weight + weight value := by
  have hsum : ∀ entries : List (κ × α),
      ((setEntries entries key value).map fun e => weight e.2).sum +
          ((entries.lookup key).map weight).getD 0 =
        (entries.map fun e => weight e.2).sum + weight value := by
    intro entries
    induction entries with
    | nil => simp [setEntries]
    | cons e rest ih =>
      obtain ⟨k, v⟩ := e
      rw [lookup_cons]
      by_cases hk : k = key
      · simp only [setEntries, hk, if_true, beq_self_eq_true, map_cons, sum_cons,
          Option.map_some, Option.getD_some]
        omega
      · have hbeq : (key == k) = false := by simpa using fun h => hk h.symm
        simp only [setEntries, hk, if_false, hbeq, map_cons, sum_cons]
        omega
  exact hsum m.entries

theorem total_erase (m : OrderedMap κ α) (weight : α → Nat) (key : κ) :
    (m.erase key).total weight + m.weightAt weight key = m.total weight := by
  obtain ⟨entries, hnd⟩ := m
  show ((entries.filter fun e => decide (e.1 ≠ key)).map fun e => weight e.2).sum +
      ((entries.lookup key).map weight).getD 0 = (entries.map fun e => weight e.2).sum
  induction entries with
  | nil => simp
  | cons e rest ih =>
    obtain ⟨k, v⟩ := e
    rw [map_cons, nodup_cons] at hnd
    have hrest := ih hnd.2
    simp only [ne_eq] at hrest
    rw [lookup_cons]
    by_cases hk : k = key
    · have hlookup : rest.lookup key = none := by
        have hget : (⟨rest, hnd.2⟩ : OrderedMap κ α).get? key = none := by
          rw [get?_eq_none_iff]
          exact hk ▸ hnd.1
        exact hget
      rw [hlookup] at hrest
      simp only [Option.map_none, Option.getD_none, Nat.add_zero] at hrest
      simp only [hk, ne_eq, not_true_eq_false, decide_false, filter_cons, Bool.false_eq_true,
        if_false, beq_self_eq_true, Option.map_some, Option.getD_some, map_cons,
        sum_cons]
      rw [hrest]
      omega
    · have hbeq : (key == k) = false := by simpa using fun h => hk h.symm
      simp only [filter_cons, ne_eq, hk, not_false_eq_true, decide_true, if_true, hbeq,
        map_cons, sum_cons]
      omega

/-- No value weighs more than all together. -/
theorem weightAt_le_total (m : OrderedMap κ α) (weight : α → Nat) (key : κ) :
    m.weightAt weight key ≤ m.total weight := by
  rw [← m.total_erase weight key]
  exact Nat.le_add_left _ _

/-- Neither do two. -/
theorem weightAt_add_le_total (m : OrderedMap κ α) (weight : α → Nat) {key' : κ}
    (hne : key' ≠ key) : m.weightAt weight key + m.weightAt weight key' ≤ m.total weight := by
  have hrest : (m.erase key).weightAt weight key' = m.weightAt weight key' := by
    rw [weightAt, get?_erase_ne _ hne, weightAt]
  have hle := (m.erase key).weightAt_le_total weight key'
  rw [hrest] at hle
  have htotal := m.total_erase weight key
  omega

theorem total_congr {weight weight' : α → Nat}
    (h : ∀ key value, m.get? key = some value → weight value = weight' value) :
    m.total weight = m.total weight' := by
  rw [total, total]
  congr 1
  apply map_congr_left
  intro e he
  exact h e.1 e.2 (get?_eq_some_iff.mpr he)

/-- A total can be taken over the keys in any order. -/
theorem total_eq_sum (weight : α → Nat) {l : List κ} (hl : l.Nodup)
    (h : ∀ k, (m.get? k).isSome = true ↔ k ∈ l) :
    m.total weight = (l.map (m.weightAt weight)).sum := by
  have hnd : m.keys.Nodup := m.nodup
  have hperm : m.keys.Perm l := by
    rw [perm_ext_iff_of_nodup hnd hl]
    intro k
    rw [← h k, Option.isSome_iff_ne_none, ne_eq, get?_eq_none_iff, not_not]
  have hweights : m.entries.map (fun e => weight e.2) = m.keys.map (m.weightAt weight) := by
    rw [keys, map_map]
    apply map_congr_left
    intro e he
    have hget : m.get? e.1 = some e.2 := get?_eq_some_iff.mpr he
    exact (weightAt_of_get? weight hget).symm
  rw [total, hweights]
  exact (hperm.map _).sum_eq

end DecidableEq

theorem size_filter_le (m : OrderedMap κ α) (keep : κ → α → Bool) :
    (m.filter keep).size ≤ m.size :=
  length_filter_le _ _

end OrderedMap

end ClawMessenger.Verified
