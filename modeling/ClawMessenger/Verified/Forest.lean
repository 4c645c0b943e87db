import ClawMessenger.Verified.Rows

/-!
# Rows with parents

A table whose rows name a parent row or none.  `Forest` says that the rows can
have been inserted one after the other, each under a row that was there.  `root`
climbs from a key to the row without a parent, `descend` adds children to a set
of keys round by round, as a recursive query does; in a forest every row has a
root (`Forest.root_isSome`), and it is found again below it (`mem_descend`).
-/

namespace ClawMessenger.Verified.Tree

open List

variable {ρ κ : Type*} [DecidableEq κ] (key : ρ → κ) (parent : ρ → Option κ) (keep : ρ → Bool)

/-- Each row was inserted under a row that was there, or under none. -/
inductive Forest : List ρ → Prop
  | nil : Forest []
  | snoc {rows : List ρ} {row : ρ} (h : Forest rows) (hnew : ∀ old ∈ rows, key old ≠ key row)
      (hparent : ∀ k, parent row = some k → ∃ p ∈ rows, key p = k) : Forest (rows ++ [row])

/-- The row with a key. -/
def find (rows : List ρ) (k : κ) : Option ρ := rows.find? fun row => key row = k

/-- The root above a key, in so many steps. -/
def climb (rows : List ρ) : Nat → κ → Option κ
  | 0, _ => none
  | n + 1, k =>
    match find key rows k with
    | none => none
    | some row =>
      match parent row with
      | none => some k
      | some p => climb rows n p

def root (rows : List ρ) (k : κ) : Option κ := climb key parent rows rows.length k

/-- The keys of the children that are kept. -/
def children (rows : List ρ) (ks : List κ) : List κ :=
  (rows.filter fun row => keep row && (parent row).any fun p => decide (p ∈ ks)).map key

/-- What so many rounds of adding children make of some keys. -/
def descend (rows : List ρ) : Nat → List κ → List κ
  | 0, ks => ks
  | n + 1, ks => descend rows n ks ++ children key parent keep rows (descend rows n ks)

section Climb

variable {key parent keep} {rows : List ρ} {n : Nat} {k r : κ}

theorem climb_cases (h : climb key parent rows n k = some r) :
    ∃ m row, n = m + 1 ∧ find key rows k = some row ∧
      ((parent row = none ∧ r = k) ∨ ∃ p, parent row = some p ∧ climb key parent rows m p = some r) := by
  cases n with
  | zero => cases h
  | succ m =>
    unfold climb at h
    cases hrow : find key rows k with
    | none =>
      rw [hrow] at h
      cases h
    | some row =>
      rw [hrow] at h
      dsimp only at h
      cases hparent : parent row with
      | none =>
        rw [hparent] at h
        exact ⟨m, row, rfl, rfl, .inl ⟨hparent, (Option.some.inj h).symm⟩⟩
      | some p =>
        rw [hparent] at h
        exact ⟨m, row, rfl, rfl, .inr ⟨p, hparent, h⟩⟩

theorem climb_mono {m : Nat} (hle : n ≤ m) (h : climb key parent rows n k = some r) :
    climb key parent rows m k = some r := by
  induction n generalizing m k with
  | zero => cases h
  | succ n ih =>
    obtain ⟨n', row, hn, hrow, hcase⟩ := climb_cases h
    obtain ⟨m', rfl⟩ : ∃ m', m = m' + 1 := ⟨m - 1, by omega⟩
    have hn' : n' = n := by omega
    unfold climb
    rw [hrow]
    dsimp only
    rcases hcase with ⟨hparent, rfl⟩ | ⟨p, hparent, hp⟩
    · rw [hparent]
    · rw [hparent]
      rw [hn'] at hp
      exact ih (by omega) hp

theorem find_append {extra : List ρ} {row : ρ} (h : find key rows k = some row) :
    find key (rows ++ extra) k = some row := by
  unfold find at h ⊢
  rw [find?_append, h]
  rfl

theorem climb_append (extra : List ρ) (h : climb key parent rows n k = some r) :
    climb key parent (rows ++ extra) n k = some r := by
  induction n generalizing k with
  | zero => cases h
  | succ n ih =>
    obtain ⟨n', row, hn, hrow, hcase⟩ := climb_cases h
    have hn' : n' = n := by omega
    unfold climb
    rw [find_append hrow]
    dsimp only
    rcases hcase with ⟨hparent, rfl⟩ | ⟨p, hparent, hp⟩
    · rw [hparent]
    · rw [hparent]
      rw [hn'] at hp
      exact ih hp

/-- Rows that come later do not change a root. -/
theorem root_append (extra : List ρ) (h : root key parent rows k = some r) :
    root key parent (rows ++ extra) k = some r := by
  apply climb_mono _ (climb_append extra h)
  rw [length_append]
  omega

/-- An update that leaves keys and parents alone leaves the roots alone. -/
theorem root_map {f : ρ → ρ} (hkey : ∀ row, key (f row) = key row)
    (hparent : ∀ row, parent (f row) = parent row) :
    root key parent (rows.map f) k = root key parent rows k := by
  have hclimb : ∀ n k, climb key parent (rows.map f) n k = climb key parent rows n k := by
    intro n
    induction n with
    | zero => exact fun _ => rfl
    | succ n ih =>
      intro k
      have hfind : find key (rows.map f) k = (find key rows k).map f := by
        unfold find
        rw [find?_map]
        congr 2
        funext row
        show decide (key (f row) = k) = decide (key row = k)
        rw [hkey]
      unfold climb
      rw [hfind]
      cases find key rows k with
      | none => rfl
      | some row =>
        dsimp only [Option.map_some]
        rw [hparent]
        cases parent row with
        | none => rfl
        | some p => exact ih p
  unfold root
  rw [length_map]
  exact hclimb rows.length k

/-- A key is found again below its root, where what is kept includes the row and
the parent of every row that it includes. -/
theorem mem_descend (hup : ∀ row ∈ rows, keep row = true → ∀ p ∈ rows, parent row = some (key p) →
    keep p = true) (hkeep : ∀ row, find key rows k = some row → keep row = true)
    (h : climb key parent rows n k = some r) : k ∈ descend key parent keep rows n [r] := by
  induction n generalizing k with
  | zero => cases h
  | succ n ih =>
    obtain ⟨n', row, hn, hrow, hcase⟩ := climb_cases h
    have hn' : n' = n := by omega
    rw [hn'] at hcase
    rcases hcase with ⟨-, rfl⟩ | ⟨p, hparent, hp⟩
    · refine mem_append_left _ ?_
      clear h ih hn hn' hrow hkeep
      induction n with
      | zero => exact mem_singleton_self r
      | succ n ih => exact mem_append_left _ ih
    · refine mem_append_right _ ?_
      have hmem := mem_of_find?_eq_some hrow
      have hkey := find?_some hrow
      rw [decide_eq_true_iff] at hkey
      have hbelow : p ∈ descend key parent keep rows n [r] := by
        refine ih (fun prow hprow => ?_) hp
        have hpkey := find?_some hprow
        rw [decide_eq_true_iff] at hpkey
        apply hup row hmem (hkeep row hrow) prow (mem_of_find?_eq_some hprow)
        rw [hparent, hpkey]
      refine mem_map.mpr ⟨row, mem_filter.mpr ⟨hmem, ?_⟩, hkey⟩
      rw [hkeep row hrow, hparent]
      exact decide_eq_true hbelow

end Climb

namespace Forest

variable {key parent} {rows : List ρ}

omit [DecidableEq κ] in
theorem keyed (h : Forest key parent rows) : Rows.Keyed key rows := by
  induction h with
  | nil => exact Rows.Keyed.nil
  | snoc _ hnew _ ih => exact ih.insert hnew

/-- Every row has a root. -/
theorem root_isSome (h : Forest key parent rows) {row : ρ} (hrow : row ∈ rows) :
    ∃ r, root key parent rows (key row) = some r := by
  induction h generalizing row with
  | nil => cases hrow
  | @snoc rows last h hnew hparent ih =>
    rcases mem_append.mp hrow with hold | hlast
    · obtain ⟨r, hr⟩ := ih hold
      exact ⟨r, root_append [last] hr⟩
    · rw [mem_singleton.mp hlast]
      have hfind : find key (rows ++ [last]) (key last) = some last := by
        unfold find
        rw [find?_append, find?_eq_none.mpr fun old hold => by simpa using hnew old hold]
        simp
      have hlength : (rows ++ [last]).length = rows.length + 1 := by simp
      unfold root
      rw [hlength]
      unfold climb
      rw [hfind]
      dsimp only
      cases hp : parent last with
      | none => exact ⟨key last, rfl⟩
      | some p =>
        obtain ⟨q, hq, hkey⟩ := hparent p hp
        obtain ⟨r, hr⟩ := ih hq
        rw [hkey] at hr
        exact ⟨r, climb_append [last] hr⟩

omit [DecidableEq κ] in
theorem map {f : ρ → ρ} (hkey : ∀ row, key (f row) = key row)
    (hparent : ∀ row, parent (f row) = parent row) (h : Forest key parent rows) :
    Forest key parent (rows.map f) := by
  induction h with
  | nil => exact .nil
  | @snoc rows last h hnew hp ih =>
    rw [map_append, map_singleton]
    refine .snoc ih ?_ ?_
    · intro old hold
      obtain ⟨row, hrow, rfl⟩ := mem_map.mp hold
      rw [hkey, hkey]
      exact hnew row hrow
    · intro k hk
      rw [hparent] at hk
      obtain ⟨q, hq, heq⟩ := hp k hk
      exact ⟨f q, mem_map_of_mem hq, (hkey q).trans heq⟩

end Forest

end ClawMessenger.Verified.Tree
