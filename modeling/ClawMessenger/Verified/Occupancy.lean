import Mathlib

/-!
# One holder for a resource

Keys hold resources, at most one each, and a key that wants a resource it does
not hold takes a claim on it first.  `has` is who holds what, `claim` who has
claimed what.  A table is `Exclusive` when no resource has two holders and no
claim is on a resource that another key holds; a key is `Entitled` to a
resource when it holds it or has claimed it.

An entitled key may take the resource (`Exclusive.put`), and no two keys are
ever entitled to the same one (`Exclusive.entitled_unique`).  All four moves of
a key leave the entitlements of the others alone.
-/

namespace ClawMessenger.Verified.Occupancy

open Function (update update_of_ne update_self)

variable {κ ρ : Type*}

structure Exclusive (has : κ → Option ρ) (claim : ρ → Option κ) : Prop where
  distinct : ∀ k k' r, has k = some r → has k' = some r → k = k'
  claimed : ∀ k k' r, claim r = some k → has k' = some r → k' = k

def Entitled (has : κ → Option ρ) (claim : ρ → Option κ) (k : κ) (r : ρ) : Prop :=
  has k = some r ∨ claim r = some k

variable {has : κ → Option ρ} {claim : ρ → Option κ}

variable {k k' : κ} {r : ρ}

theorem Exclusive.entitled_unique (h : Exclusive has claim) (hk : Entitled has claim k r)
    (hk' : Entitled has claim k' r) : k = k' := by
  rcases hk with hholds | hclaims
  · rcases hk' with hholds' | hclaims'
    · exact h.distinct k k' r hholds hholds'
    · exact h.claimed k' k r hclaims' hholds
  · rcases hk' with hholds' | hclaims'
    · exact (h.claimed k k' r hclaims hholds').symm
    · rw [hclaims] at hclaims'
      exact Option.some.inj hclaims'

/-- An entitled key takes the resource, and gives up what it held. -/
theorem Exclusive.put [DecidableEq κ] (h : Exclusive has claim) (hk : Entitled has claim k r) :
    Exclusive (update has k (some r)) claim := by
  have hentitled : ∀ k' r', update has k (some r) k' = some r' →
      Entitled has claim k' r' := by
    intro k' r' hholds
    by_cases heq : k' = k
    · rw [heq, update_self] at hholds
      rw [heq, ← Option.some.inj hholds]
      exact hk
    · rw [update_of_ne heq] at hholds
      exact .inl hholds
  constructor
  · intro k₁ k₂ r' h₁ h₂
    exact h.entitled_unique (hentitled k₁ r' h₁) (hentitled k₂ r' h₂)
  · intro k₁ k₂ r' hclaims h₂
    exact h.entitled_unique (hentitled k₂ r' h₂) (.inr hclaims)

theorem Exclusive.drop [DecidableEq κ] (h : Exclusive has claim) (k : κ) :
    Exclusive (update has k none) claim := by
  have hholds : ∀ k' r, update has k none k' = some r → has k' = some r := by
    intro k' r hk'
    by_cases heq : k' = k
    · rw [heq, update_self] at hk'
      cases hk'
    · rwa [update_of_ne heq] at hk'
  constructor
  · intro k₁ k₂ r h₁ h₂
    exact h.distinct k₁ k₂ r (hholds k₁ r h₁) (hholds k₂ r h₂)
  · intro k₁ k₂ r hclaims h₂
    exact h.claimed k₁ k₂ r hclaims (hholds k₂ r h₂)

/-- A resource that no other key holds may be claimed. -/
theorem Exclusive.take [DecidableEq ρ] (h : Exclusive has claim)
    (hfree : ∀ k', has k' = some r → k' = k) :
    Exclusive has (update claim r (some k)) := by
  refine ⟨h.distinct, ?_⟩
  intro k₁ k₂ r' hclaims hholds
  by_cases heq : r' = r
  · rw [heq, update_self] at hclaims
    rw [heq] at hholds
    rw [← Option.some.inj hclaims]
    exact hfree k₂ hholds
  · rw [update_of_ne heq] at hclaims
    exact h.claimed k₁ k₂ r' hclaims hholds

theorem Exclusive.release [DecidableEq ρ] (h : Exclusive has claim) (r : ρ) :
    Exclusive has (update claim r none) := by
  refine ⟨h.distinct, ?_⟩
  intro k₁ k₂ r' hclaims hholds
  by_cases heq : r' = r
  · rw [heq, update_self] at hclaims
    cases hclaims
  · rw [update_of_ne heq] at hclaims
    exact h.claimed k₁ k₂ r' hclaims hholds

/-! ## What the moves of one key leave to the others -/

theorem Entitled.of_update_has [DecidableEq κ] (hne : k' ≠ k) (h : Entitled has claim k' r)
    (value : Option ρ) :
    Entitled (update has k value) claim k' r := by
  rcases h with hholds | hclaims
  · exact .inl (by rw [update_of_ne hne]; exact hholds)
  · exact .inr hclaims

/-- A claim that nobody else has changes hands. -/
theorem Entitled.of_update_claim [DecidableEq ρ] {r' : ρ} {value : Option κ} (hne : k' ≠ k)
    (hmine : ∀ k'', claim r = some k'' → k'' = k) (h : Entitled has claim k' r') :
    Entitled has (update claim r value) k' r' := by
  rcases h with hholds | hclaims
  · exact .inl hholds
  · by_cases heq : r' = r
    · rw [heq] at hclaims
      exact absurd (hmine k' hclaims) hne
    · exact .inr (by rw [update_of_ne heq]; exact hclaims)

end ClawMessenger.Verified.Occupancy
