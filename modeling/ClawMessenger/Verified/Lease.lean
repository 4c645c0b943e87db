import Mathlib

/-!
# A lease with a fencing token

A register holds the token of the present owner and the time up to which the
entry is kept.  It is taken when it is free, and extended and given back by the
owner only.  Every operation is one atomic step of the register, at a time of
its own.

An owner does not see the register.  What it knows is when it sent a request
that was granted: from then on the lease lasts at least `ttl`.  `Backed` says
that the register still bears this out, and each operation of anybody else
keeps it.  Two tokens that are both backed and not yet due are the same.
-/

namespace ClawMessenger.Verified

structure Lease (τ : Type*) where
  token : τ
  expiresAt : Nat

namespace Lease

variable {τ : Type*}

abbrev Register (τ : Type*) := Option (Lease τ)

def tryAcquire [DecidableEq τ] (r : Register τ) (token : τ) (ttl now : Nat) : Bool × Register τ :=
  match r with
  | none => (true, some ⟨token, now + ttl⟩)
  | some l => if l.token = token then (true, some ⟨token, now + ttl⟩) else (false, some l)

def renew [DecidableEq τ] (r : Register τ) (token : τ) (ttl now : Nat) : Bool × Register τ :=
  match r with
  | none => (false, none)
  | some l => if l.token = token then (true, some ⟨token, now + ttl⟩) else (false, some l)

def release [DecidableEq τ] (r : Register τ) (token : τ) : Bool × Register τ :=
  match r with
  | none => (false, none)
  | some l => if l.token = token then (true, none) else (false, some l)

/-- The entry may go once its time is over. -/
def expire (r : Register τ) (now : Nat) : Register τ :=
  match r with
  | none => none
  | some l => if l.expiresAt ≤ now then none else some l

/-- The lease that was granted from `since` on stands, unless its time is over. -/
def Backed (r : Register τ) (token : τ) (since ttl now : Nat) : Prop :=
  since + ttl ≤ now ∨ ∃ l, r = some l ∧ l.token = token ∧ since + ttl ≤ l.expiresAt

variable {r : Register τ} {token other : τ} {since ttl now : Nat}

theorem backed_granted (h : since ≤ now) : Backed (some ⟨token, now + ttl⟩) token since ttl now :=
  .inr ⟨_, rfl, rfl, Nat.add_le_add_right h ttl⟩

theorem Backed.mono (h : Backed r token since ttl now) {later : Nat} (hle : now ≤ later) :
    Backed r token since ttl later := by
  rcases h with hover | hstands
  · exact .inl (Nat.le_trans hover hle)
  · exact .inr hstands

/-- A request of anybody leaves the lease or gives it the whole time again. -/
theorem Backed.of_kept (h : Backed r token since ttl now) (hsince : since ≤ now)
    {r' : Register τ} (hkept : ∀ l, r = some l → r' = some l ∨ r' = some ⟨l.token, now + ttl⟩) :
    Backed r' token since ttl now := by
  rcases h with hover | ⟨l, hl, htoken, hexpires⟩
  · exact .inl hover
  · right
    rcases hkept l hl with hsame | hextended
    · exact ⟨l, hsame, htoken, hexpires⟩
    · exact ⟨_, hextended, htoken, Nat.add_le_add_right hsince ttl⟩

theorem Backed.tryAcquire [DecidableEq τ] (h : Backed r token since ttl now) (hsince : since ≤ now) :
    Backed (Lease.tryAcquire r other ttl now).2 token since ttl now := by
  apply h.of_kept hsince
  intro l hl
  subst hl
  by_cases htoken : l.token = other
  · right
    rw [Lease.tryAcquire, if_pos htoken, htoken]
  · left
    rw [Lease.tryAcquire, if_neg htoken]

theorem Backed.renew [DecidableEq τ] (h : Backed r token since ttl now) (hsince : since ≤ now) :
    Backed (Lease.renew r other ttl now).2 token since ttl now := by
  apply h.of_kept hsince
  intro l hl
  subst hl
  by_cases htoken : l.token = other
  · right
    rw [Lease.renew, if_pos htoken, htoken]
  · left
    rw [Lease.renew, if_neg htoken]

/-- A release with another token is fenced off. -/
theorem Backed.release [DecidableEq τ] (h : Backed r token since ttl now) (hother : other ≠ token) :
    Backed (Lease.release r other).2 token since ttl now := by
  rcases h with hover | ⟨l, rfl, htoken, hexpires⟩
  · exact .inl hover
  · right
    rw [Lease.release, if_neg (by rw [htoken]; exact Ne.symm hother)]
    exact ⟨l, rfl, htoken, hexpires⟩

theorem Backed.expire (h : Backed r token since ttl now) :
    Backed (Lease.expire r now) token since ttl now := by
  rcases h with hover | ⟨l, rfl, htoken, hexpires⟩
  · exact .inl hover
  · by_cases hdue : l.expiresAt ≤ now
    · exact .inl (Nat.le_trans hexpires hdue)
    · right
      rw [Lease.expire, if_neg hdue]
      exact ⟨l, rfl, htoken, hexpires⟩

theorem tryAcquire_granted [DecidableEq τ] (h : (Lease.tryAcquire r token ttl now).1 = true) :
    (Lease.tryAcquire r token ttl now).2 = some ⟨token, now + ttl⟩ := by
  cases r with
  | none => rfl
  | some l =>
    by_cases htoken : l.token = token
    · rw [Lease.tryAcquire, if_pos htoken]
    · rw [Lease.tryAcquire, if_neg htoken] at h
      cases h

theorem renew_granted [DecidableEq τ] (h : (Lease.renew r token ttl now).1 = true) :
    (Lease.renew r token ttl now).2 = some ⟨token, now + ttl⟩ := by
  cases r with
  | none => cases h
  | some l =>
    by_cases htoken : l.token = token
    · rw [Lease.renew, if_pos htoken]
    · rw [Lease.renew, if_neg htoken] at h
      cases h

/-- One owner at a time. -/
theorem Backed.exclusive {since' : Nat} (h : Backed r token since ttl now)
    (h' : Backed r other since' ttl now) (hdue : now < since + ttl) (hdue' : now < since' + ttl) :
    token = other := by
  rcases h with hover | ⟨l, hl, htoken, _⟩
  · exact absurd hdue (Nat.not_lt.mpr hover)
  · rcases h' with hover | ⟨l', hl', htoken', _⟩
    · exact absurd hdue' (Nat.not_lt.mpr hover)
    · rw [hl, Option.some.injEq] at hl'
      rw [← htoken, hl', htoken']

end Lease

end ClawMessenger.Verified
