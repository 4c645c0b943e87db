import Mathlib

/-!
# Paging by the key of the last row

A sorted list is served a page at a time.  A page that is not the last names
the key of its last row, and the next request asks for what is behind that key.
`Serves` is all a reader has to know of the server: the first request gets the
first page of everything, and the key of a row, where the server accepts it,
the first page of what is behind the row.

Following the keys then reads everything once and in order exactly when the
server accepts the key of every row a page ends with (`follow_iff`).
-/

namespace ClawMessenger.Verified.Keyset

open List

variable {α κ ε : Type*}

structure Page (α κ : Type*) where
  rows : List α
  next : Option κ

/-- The first page of some rows: the key of the last row where more follow. -/
def serve (limit : Nat) (keyOf : α → κ) (rows : List α) : Page α κ :=
  if limit < rows.length then ⟨rows.take limit, (rows.take limit).getLast?.map keyOf⟩
  else ⟨rows, none⟩

/-- Ask for page after page, at most so many; nothing when these do not suffice. -/
def follow (fetch : Option κ → Except ε (Page α κ)) : Nat → Option κ → Option (Except ε (List α))
  | 0, _ => none
  | fuel + 1, key =>
    match fetch key with
    | .error e => some (.error e)
    | .ok page =>
      match page.next with
      | none => some (.ok page.rows)
      | some next => (follow fetch fuel (some next)).map fun rest => rest.map (page.rows ++ ·)

/-- The row ends a page, and others follow it. -/
def EndsPage (limit : Nat) (rows : List α) (a : α) : Prop :=
  ∃ front back, rows = front ++ a :: back ∧ back ≠ [] ∧ limit ∣ front.length + 1

structure Serves (limit : Nat) (keyOf : α → κ) (accepted : α → Prop) [DecidablePred accepted]
    (e : ε) (all : List α) (fetch : Option κ → Except ε (Page α κ)) : Prop where
  first : fetch none = .ok (serve limit keyOf all)
  next : ∀ front a back, all = front ++ a :: back →
    fetch (some (keyOf a)) = if accepted a then .ok (serve limit keyOf back) else .error e

variable {limit : Nat} {keyOf : α → κ} {rows : List α}

theorem serve_last (h : rows.length ≤ limit) : serve limit keyOf rows = ⟨rows, none⟩ := by
  rw [serve, if_neg (by omega)]

/-- A page that others follow: some rows and the one it ends with. -/
theorem serve_more (hlimit : 0 < limit) (h : limit < rows.length) :
    ∃ front last back, rows = front ++ last :: back ∧ back ≠ [] ∧ front.length + 1 = limit ∧
      serve limit keyOf rows = ⟨front ++ [last], some (keyOf last)⟩ := by
  have hne : rows.take limit ≠ [] := by
    intro hnil
    have hlength := congrArg length hnil
    rw [length_take, length_nil] at hlength
    omega
  have hsplit := dropLast_append_getLast hne
  refine ⟨(rows.take limit).dropLast, (rows.take limit).getLast hne, rows.drop limit, ?_, ?_, ?_, ?_⟩
  · calc rows = rows.take limit ++ rows.drop limit := (take_append_drop limit rows).symm
      _ = (rows.take limit).dropLast ++ (rows.take limit).getLast hne :: rows.drop limit := by
        conv_lhs => rw [← hsplit]
        rw [append_assoc]
        rfl
  · intro hnil
    have hlength := congrArg length hnil
    rw [length_drop, length_nil] at hlength
    omega
  · rw [length_dropLast, length_take]
    omega
  · rw [serve, if_pos h, hsplit, getLast?_eq_some_getLast hne]
    rfl

theorem not_endsPage (h : rows.length ≤ limit) (a : α) : ¬ EndsPage limit rows a := by
  rintro ⟨front, back, rfl, hback, hdvd⟩
  have hle := Nat.le_of_dvd (Nat.succ_pos _) hdvd
  have hpos := length_pos_iff.mpr hback
  rw [length_append, length_cons] at h
  omega

/-- The rows that end a page: the one of the first page, and those of the rest. -/
theorem endsPage_split {front back : List α} {last a : α} (hback : back ≠ [])
    (hlength : front.length + 1 = limit) :
    EndsPage limit (front ++ last :: back) a ↔ a = last ∨ EndsPage limit back a := by
  constructor
  · rintro ⟨front', back', heq, hback', hdvd⟩
    obtain ⟨k, hk⟩ := hdvd
    have hassoc : (front ++ [last]) ++ back = (front' ++ [a]) ++ back' := by
      simpa using heq
    by_cases hone : k = 1
    · left
      have hsame : (front ++ [last]).length = (front' ++ [a]).length := by
        rw [length_append, length_append, length_singleton, length_singleton,
          hlength, hk, hone, Nat.mul_one]
      have hpage := (append_inj hassoc hsame).1
      exact (append_inj hpage (by simpa using hsame)).2 |> singleton_inj.mp |>.symm
    · right
      have hkpos : 0 < k := by
        rcases Nat.eq_zero_or_pos k with h0 | h0
        · rw [h0, Nat.mul_zero] at hk
          omega
        · exact h0
      have hmul : limit * k = limit + limit * (k - 1) := by
        obtain ⟨j, rfl⟩ : ∃ j, k = j + 1 := ⟨k - 1, by omega⟩
        rw [Nat.add_sub_cancel, Nat.mul_succ]
        omega
      have hfirst : limit ≤ limit * (k - 1) := Nat.le_mul_of_pos_right _ (by omega)
      have hpage : (front ++ [last]).length ≤ front'.length := by
        rw [length_append, length_singleton, hlength]
        omega
      obtain ⟨middle, rfl⟩ : ∃ middle, front' = (front ++ [last]) ++ middle := by
        have hassoc' : (front ++ [last]) ++ back = front' ++ a :: back' := by simpa using heq
        rcases append_eq_append_iff.mp hassoc' with ⟨middle, hmiddle, _⟩ | ⟨extra, hextra, _⟩
        · exact ⟨middle, hmiddle⟩
        · have hnil : extra = [] := by
            apply eq_nil_of_length_eq_zero
            rw [hextra, length_append] at hpage
            omega
          exact ⟨[], by rw [hextra, hnil, append_nil, append_nil]⟩
      refine ⟨middle, back', ?_, hback', k - 1, ?_⟩
      · simpa using heq
      · rw [length_append, length_append, length_singleton] at hk
        omega
  · rintro (rfl | ⟨front', back', rfl, hback', hdvd⟩)
    · exact ⟨front, back, rfl, hback, 1, by omega⟩
    · refine ⟨front ++ last :: front', back', by simp, hback', ?_⟩
      have hsum : (front ++ last :: front').length + 1 = limit + (front'.length + 1) := by
        rw [length_append, length_cons]
        omega
      rw [hsum]
      exact (Nat.dvd_add_right (Nat.dvd_refl limit)).mpr hdvd

variable {accepted : α → Prop} [DecidablePred accepted] {e : ε} {all : List α}
  {fetch : Option κ → Except ε (Page α κ)}

section

variable (h : Serves limit keyOf accepted e all fetch) (hlimit : 0 < limit)
include h hlimit

/-- Where every key is accepted, the rest is read. -/
theorem Serves.reads {rest : List α} {key : Option κ} (hsuffix : rest <:+ all)
    (hkey : fetch key = .ok (serve limit keyOf rest))
    (haccepted : ∀ a, EndsPage limit rest a → accepted a) :
    ∃ fuel, follow fetch fuel key = some (.ok rest) := by
  induction hn : rest.length using Nat.strong_induction_on generalizing rest key with
  | _ n ih =>
    by_cases hmore : limit < rest.length
    · obtain ⟨front, last, back, rfl, hback, hlength, hserve⟩ := serve_more hlimit hmore
      have hsplit : ∀ a, EndsPage limit (front ++ last :: back) a ↔ a = last ∨ EndsPage limit back a :=
        fun a => endsPage_split hback hlength
      obtain ⟨before, hall⟩ := hsuffix
      have hlast : accepted last := haccepted last ((hsplit last).mpr (.inl rfl))
      have hnext := h.next (before ++ front) last back (by rw [← hall]; simp)
      rw [if_pos hlast] at hnext
      have hshorter : back.length < n := by
        rw [← hn, length_append, length_cons]
        omega
      obtain ⟨fuel, hfuel⟩ := ih back.length hshorter ⟨before ++ (front ++ [last]), by
        rw [← hall]
        simp⟩ hnext (fun a ha => haccepted a ((hsplit a).mpr (.inr ha))) rfl
      refine ⟨fuel + 1, ?_⟩
      rw [follow, hkey, hserve]
      simp only [hfuel, Option.map_some]
      simp [Except.map]
    · refine ⟨1, ?_⟩
      rw [follow, hkey, serve_last (by omega)]

/-- Whoever reads to an end was served every page, and has the rest. -/
theorem Serves.read {rest l : List α} {key : Option κ} {fuel : Nat} (hsuffix : rest <:+ all)
    (hkey : fetch key = .ok (serve limit keyOf rest))
    (hfollow : follow fetch fuel key = some (.ok l)) :
    l = rest ∧ ∀ a, EndsPage limit rest a → accepted a := by
  induction fuel generalizing rest l key with
  | zero => cases hfollow
  | succ fuel ih =>
    rw [follow, hkey] at hfollow
    by_cases hmore : limit < rest.length
    · obtain ⟨front, last, back, rfl, hback, hlength, hserve⟩ := serve_more hlimit hmore
      obtain ⟨before, hall⟩ := hsuffix
      have hnext := h.next (before ++ front) last back (by rw [← hall]; simp)
      rw [hserve] at hfollow
      dsimp only at hfollow
      by_cases hlast : accepted last
      · rw [if_pos hlast] at hnext
        cases hread : follow fetch fuel (some (keyOf last)) with
        | none =>
          rw [hread] at hfollow
          cases hfollow
        | some answer =>
          cases answer with
          | error e' =>
            rw [hread] at hfollow
            cases hfollow
          | ok read =>
            obtain ⟨hrest, hends⟩ := ih ⟨before ++ (front ++ [last]), by
              rw [← hall]
              simp⟩ hnext hread
            rw [hread, hrest] at hfollow
            constructor
            · simpa [Except.map, eq_comm] using hfollow
            · intro a ha
              rcases (endsPage_split hback hlength).mp ha with rfl | ha
              · exact hlast
              · exact hends a ha
      · -- the key is refused
        rw [if_neg hlast] at hnext
        cases fuel with
        | zero => cases hfollow
        | succ fuel =>
          rw [follow, hnext] at hfollow
          cases hfollow
    · rw [serve_last (by omega)] at hfollow
      constructor
      · simpa [eq_comm] using hfollow
      · intro a ha
        exact absurd ha (not_endsPage (by omega) a)

/-- Following the keys reads everything, once and in order, exactly when the key
of every row a page ends with is accepted. -/
theorem Serves.follow_iff :
    (∃ fuel, follow fetch fuel none = some (.ok all)) ↔
      ∀ a, EndsPage limit all a → accepted a := by
  constructor
  · rintro ⟨fuel, hfuel⟩
    exact (h.read hlimit (suffix_refl _) h.first hfuel).2
  · exact h.reads hlimit (suffix_refl _) h.first

end

end ClawMessenger.Verified.Keyset
