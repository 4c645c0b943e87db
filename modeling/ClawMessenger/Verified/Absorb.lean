import Mathlib.Data.List.Basic

/-!
# Steps that may come in any order and more than once

When the steps of a family commute with each other and a repeated step does
nothing, a run depends only on which steps it takes.  Both facts may need an
invariant of the states the run goes through.
-/

namespace ClawMessenger.Verified.Absorb

open List

variable {S U : Type} {f : S → U → S} {P : S → Prop} {Q : U → Prop}

/-- On states with `P`, steps with `Q` commute and a repeated one does nothing. -/
structure Absorbs (f : S → U → S) (P : S → Prop) (Q : U → Prop) : Prop where
  keeps : ∀ s u, P s → Q u → P (f s u)
  comm : ∀ s u v, P s → Q u → Q v → f (f s u) v = f (f s v) u
  idem : ∀ s u, P s → Q u → f (f s u) u = f s u

section

variable (h : Absorbs f P Q) (l : List U) (hl : ∀ u ∈ l, Q u) {s : S} (hs : P s)
include h l hl hs

/-- A step taken last could have been taken first. -/
theorem Absorbs.foldl_comm {u : U} (hu : Q u) : f (l.foldl f s) u = l.foldl f (f s u) := by
  induction l generalizing s with
  | nil => rfl
  | cons v l ih =>
    have hv := hl v mem_cons_self
    rw [foldl_cons, foldl_cons, h.comm s u v hs hu hv]
    exact ih (fun w hw => hl w (mem_cons_of_mem _ hw)) (h.keeps s v hs hv)

/-- A step the run has already taken does nothing. -/
theorem Absorbs.foldl_idem {u : U} (hu : u ∈ l) : f (l.foldl f s) u = l.foldl f s := by
  induction l generalizing s with
  | nil => cases hu
  | cons v l ih =>
    have hv := hl v mem_cons_self
    have hrest : ∀ w ∈ l, Q w := fun w hw => hl w (mem_cons_of_mem _ hw)
    rw [foldl_cons]
    rcases mem_cons.mp hu with rfl | hmem
    · rw [h.foldl_comm l hrest (h.keeps s u hs hv) hv, h.idem s u hs hv]
    · exact ih hrest (h.keeps s v hs hv) hmem

end

/-- Runs that take the same steps end in the same state. -/
theorem Absorbs.foldl_eq (h : Absorbs f P Q) {l l' : List U} (hl : ∀ u ∈ l, Q u)
    (hsame : ∀ u, u ∈ l' ↔ u ∈ l) {s : S} (hs : P s) : l'.foldl f s = l.foldl f s := by
  have hl' : ∀ u ∈ l', Q u := fun u hu => hl u ((hsame u).mp hu)
  have habsorbed (k m : List U) (hk : ∀ u ∈ k, Q u) (hm : ∀ u ∈ m, u ∈ k) :
      m.foldl f (k.foldl f s) = k.foldl f s := by
    induction m with
    | nil => rfl
    | cons u m ih =>
      rw [foldl_cons, h.foldl_idem k hk hs (hm u mem_cons_self)]
      exact ih fun w hw => hm w (mem_cons_of_mem _ hw)
  have hswap (k m : List U) (hk : ∀ u ∈ k, Q u) (hm : ∀ u ∈ m, Q u) (t : S) (ht : P t) :
      m.foldl f (k.foldl f t) = k.foldl f (m.foldl f t) := by
    induction m generalizing t with
    | nil => rfl
    | cons u m ih =>
      have hu := hm u mem_cons_self
      rw [foldl_cons, foldl_cons, h.foldl_comm k hk ht hu]
      exact ih (fun w hw => hm w (mem_cons_of_mem _ hw)) _ (h.keeps t u ht hu)
  calc l'.foldl f s = l.foldl f (l'.foldl f s) := (habsorbed l' l hl' fun u hu => (hsame u).mpr hu).symm
    _ = l'.foldl f (l.foldl f s) := hswap l' l hl' hl s hs
    _ = l.foldl f s := habsorbed l l' hl fun u hu => (hsame u).mp hu

end ClawMessenger.Verified.Absorb
