import Mathlib

/-!
# Stores whose entries expire

A store maps a key to a value with a deadline, or without one.  `purge` drops
what is past its deadline; every other operation is one command on one key.
A lookup after a command is a lookup before it, except at the key of the
command, so one lemma for each command says all of it.
-/

namespace ClawMessenger.Verified

structure Stored (α : Type*) where
  value : α
  deadline : Option Nat

abbrev ExpiringStore (κ α : Type*) := κ → Option (Stored α)

namespace ExpiringStore

variable {κ α : Type*}

def get (m : ExpiringStore κ α) (key : κ) : Option α := (m key).map Stored.value

/-- The entries that are not past their deadlines. -/
def purge (m : ExpiringStore κ α) (now : Nat) : ExpiringStore κ α := fun key =>
  (m key).filter fun e => e.deadline.all fun deadline => decide (now ≤ deadline)

section DecidableEq

variable [DecidableEq κ]

def put (m : ExpiringStore κ α) (key : κ) (value : α) (deadline : Nat) : ExpiringStore κ α :=
  Function.update m key (some ⟨value, some deadline⟩)

/-- Change the value of a key and keep its deadline. -/
def modify (m : ExpiringStore κ α) (key : κ) (f : Option α → α) : ExpiringStore κ α :=
  Function.update m key (some ⟨f (m.get key), (m key).bind Stored.deadline⟩)

/-- Change the deadline of a key that is there. -/
def renew (m : ExpiringStore κ α) (key : κ) (deadline : Nat) : ExpiringStore κ α :=
  Function.update m key ((m key).map fun e => { e with deadline := some deadline })

variable (m : ExpiringStore κ α) (key k : κ)

theorem get_put (value : α) (deadline : Nat) :
    (m.put key value deadline).get k = if k = key then some value else m.get k := by
  unfold put get
  rw [Function.update_apply]
  split
  · rfl
  · rfl

theorem get_modify (f : Option α → α) :
    (m.modify key f).get k = if k = key then some (f (m.get key)) else m.get k := by
  show Option.map _ (Function.update m key _ k) = _
  rw [Function.update_apply]
  split
  · rfl
  · rfl

@[simp] theorem get_renew (deadline : Nat) : (m.renew key deadline).get k = m.get k := by
  unfold renew get
  rw [Function.update_apply]
  split
  · rename_i heq
    rw [heq, Option.map_map]
    rfl
  · rfl

end DecidableEq

/-- What survives a purge was there before. -/
theorem get_of_get_purge {m : ExpiringStore κ α} {now : Nat} {key : κ} {value : α}
    (h : (m.purge now).get key = some value) : m.get key = some value := by
  obtain ⟨e, he, hvalue⟩ := Option.map_eq_some_iff.mp h
  have hthere := (Option.filter_eq_some_iff.mp he).1
  unfold get
  rw [hthere, ← hvalue]
  rfl

/-- A purge changes nothing at a key, or it drops the key. -/
theorem get_purge (m : ExpiringStore κ α) (now : Nat) (key : κ) :
    (m.purge now).get key = m.get key ∨
      ((m.get key).isSome = true ∧ (m.purge now).get key = none) := by
  cases hpurged : (m.purge now).get key with
  | some value => exact .inl (get_of_get_purge hpurged).symm
  | none =>
    cases hget : m.get key with
    | none => exact .inl rfl
    | some value => exact .inr ⟨rfl, rfl⟩

end ExpiringStore

end ClawMessenger.Verified
