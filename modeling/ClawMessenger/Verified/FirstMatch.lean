import Mathlib

/-!
# Updating the first match

`updateFirst p f` changes the first element satisfying `p`, as code does that
looks an element up with `find` and then assigns to it.  The lemmas say what
stays: lengths, projections that `f` respects, other searches, and facts about
all elements.
-/

namespace ClawMessenger.Verified

open List

variable {α β : Type*}

def updateFirst (p : α → Bool) (f : α → α) : List α → List α
  | [] => []
  | a :: rest => if p a then f a :: rest else a :: updateFirst p f rest

variable {f : α → α} {p : α → Bool} {l : List α}

/-- A projection that the change respects is unchanged. -/
theorem map_updateFirst {g : α → β} (l : List α)
    (h : ∀ a, l.find? p = some a → g (f a) = g a) : (updateFirst p f l).map g = l.map g := by
  induction l with
  | nil => rfl
  | cons a rest ih =>
    rw [updateFirst]
    cases hp : p a with
    | true =>
      have ha : g (f a) = g a := h a (by simp [hp])
      simp [ha]
    | false =>
      have hrest : (updateFirst p f rest).map g = rest.map g := by
        apply ih
        intro b hb
        exact h b (by simp [hp, hb])
      simp [hrest]

variable {a : α}

/-- The list around the change. -/
theorem updateFirst_split (h : l.find? p = some a) :
    ∃ pre post, l = pre ++ a :: post ∧ updateFirst p f l = pre ++ f a :: post := by
  induction l with
  | nil => cases h
  | cons b rest ih =>
    rw [updateFirst]
    cases hb : p b with
    | true =>
      rw [find?_cons_of_pos hb, Option.some.injEq] at h
      subst h
      exact ⟨[], rest, rfl, rfl⟩
    | false =>
      rw [find?_cons_of_neg (by simp [hb])] at h
      obtain ⟨pre, post, hl, hupdate⟩ := ih h
      refine ⟨b :: pre, post, by rw [hl]; rfl, ?_⟩
      rw [if_neg Bool.false_ne_true, hupdate]
      rfl

/-- Nothing found, nothing changed. -/
theorem updateFirst_of_find?_none (h : l.find? p = none) : updateFirst p f l = l := by
  induction l with
  | nil => rfl
  | cons b rest ih =>
    rw [updateFirst]
    cases hb : p b with
    | true =>
      rw [find?_cons_of_pos hb] at h
      cases h
    | false =>
      rw [find?_cons_of_neg (by simp [hb])] at h
      rw [if_neg Bool.false_ne_true, ih h]

variable {b : α}

theorem mem_updateFirst (h : b ∈ updateFirst p f l) :
    b ∈ l ∨ ∃ a, l.find? p = some a ∧ b = f a := by
  induction l with
  | nil => cases h
  | cons a rest ih =>
    rw [updateFirst] at h
    cases ha : p a with
    | true =>
      rw [ha, if_pos rfl] at h
      rcases mem_cons.mp h with rfl | h
      · exact .inr ⟨a, by simp [ha], rfl⟩
      · exact .inl (mem_cons_of_mem _ h)
    | false =>
      rw [ha, if_neg Bool.false_ne_true] at h
      rcases mem_cons.mp h with rfl | h
      · exact .inl (mem_cons_self ..)
      · rcases ih h with h | ⟨c, hc, rfl⟩
        · exact .inl (mem_cons_of_mem _ h)
        · exact .inr ⟨c, by simp [ha, hc], rfl⟩

/-- What holds of all elements and of the changed one holds of all afterwards. -/
theorem forall_updateFirst {P : α → Prop} (h : ∀ a ∈ l, P a)
    (hf : ∀ a, l.find? p = some a → P (f a)) :
    ∀ b ∈ updateFirst p f l, P b := by
  intro b hb
  rcases mem_updateFirst hb with hb | ⟨a, ha, rfl⟩
  · exact h b hb
  · exact hf a ha

variable {κ : Type*}

/-- In a list without repeated keys, the search by key finds exactly the
elements. -/
theorem find?_key_eq_some_iff [BEq κ] [LawfulBEq κ] {key : α → κ} (hnd : (l.map key).Nodup)
    {k : κ} :
    l.find? (fun b => key b == k) = some a ↔ a ∈ l ∧ key a = k := by
  constructor
  · intro h
    exact ⟨mem_of_find?_eq_some h, by simpa using find?_some h⟩
  · rintro ⟨hmem, hkey⟩
    cases hfind : l.find? (fun b => key b == k) with
    | none =>
      have := find?_eq_none.mp hfind a hmem
      simp [hkey] at this
    | some b =>
      have hb : b ∈ l := mem_of_find?_eq_some hfind
      have hbk : key b = k := by simpa using find?_some hfind
      rw [inj_on_of_nodup_map hnd hb hmem (hbk.trans hkey.symm)]

/-- In a list without repeated keys, the first match on a key is the only one. -/
theorem mem_updateFirst_key_iff [BEq κ] [LawfulBEq κ] {key : α → κ} (hnd : (l.map key).Nodup)
    {k : κ} :
    b ∈ updateFirst (fun a => key a == k) f l ↔
      (b ∈ l ∧ key b ≠ k) ∨ ∃ a ∈ l, key a = k ∧ b = f a := by
  induction l with
  | nil => simp [updateFirst]
  | cons a rest ih =>
    rw [map_cons, nodup_cons] at hnd
    rw [updateFirst]
    by_cases hk : key a = k
    · have hrest : ∀ c ∈ rest, key c ≠ k := fun c hc heq =>
        hnd.1 (mem_map.mpr ⟨c, hc, heq.trans hk.symm⟩)
      have hbeq : (key a == k) = true := by simpa using hk
      rw [if_pos hbeq]
      constructor
      · intro hb
        rcases mem_cons.mp hb with rfl | hb
        · exact .inr ⟨a, mem_cons_self .., hk, rfl⟩
        · exact .inl ⟨mem_cons_of_mem _ hb, hrest b hb⟩
      · rintro (⟨hb, hne⟩ | ⟨c, hc, hck, rfl⟩)
        · rcases mem_cons.mp hb with rfl | hb
          · exact absurd hk hne
          · exact mem_cons_of_mem _ hb
        · rcases mem_cons.mp hc with rfl | hc
          · exact mem_cons_self ..
          · exact absurd hck (hrest c hc)
    · have hbeq : ¬(key a == k) = true := by simpa using hk
      rw [if_neg hbeq, mem_cons, ih hnd.2]
      constructor
      · rintro (rfl | ⟨hb, hne⟩ | ⟨c, hc, hck, rfl⟩)
        · exact .inl ⟨mem_cons_self .., hk⟩
        · exact .inl ⟨mem_cons_of_mem _ hb, hne⟩
        · exact .inr ⟨c, mem_cons_of_mem _ hc, hck, rfl⟩
      · rintro (⟨hb, hne⟩ | ⟨c, hc, hck, rfl⟩)
        · rcases mem_cons.mp hb with rfl | hb
          · exact .inl rfl
          · exact .inr (.inl ⟨hb, hne⟩)
        · rcases mem_cons.mp hc with rfl | hc
          · exact absurd hck hk
          · exact .inr (.inr ⟨c, hc, hck, rfl⟩)

/-- Erasing the first element of a key leaves the elements of all other keys. -/
theorem mem_eraseP_key_iff {key : α → κ} (hnd : (l.map key).Nodup) {k : κ}
    (hp : ∀ a, p a = true → key a = k) (hex : ∃ a ∈ l, p a = true) :
    b ∈ l.eraseP p ↔ b ∈ l ∧ key b ≠ k := by
  obtain ⟨a, ha, hpa⟩ := hex
  obtain ⟨c, l₁, l₂, _, hpc, hl, herase⟩ := exists_of_eraseP ha hpa
  have hck : key c = k := hp c hpc
  rw [hl, map_append, map_cons, nodup_middle, nodup_cons] at hnd
  rw [herase, hl]
  constructor
  · intro hb
    refine ⟨?_, fun hbk => hnd.1 ?_⟩
    · rcases mem_append.mp hb with hb | hb
      · exact mem_append_left _ hb
      · exact mem_append_right _ (mem_cons_of_mem _ hb)
    · rw [hck, ← hbk, ← map_append]
      exact mem_map_of_mem hb
  · rintro ⟨hb, hne⟩
    rcases mem_append.mp hb with hb | hb
    · exact mem_append_left _ hb
    · rcases mem_cons.mp hb with rfl | hb
      · exact absurd hck hne
      · exact mem_append_right _ hb

end ClawMessenger.Verified
