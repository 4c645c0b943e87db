import Mathlib

/-!
# Sending again what failed

A log of attempts holds, for each message tried, whether sending it succeeded.  Some
messages form a whole that is sent from its beginning again after a failure (`frames`);
the others are tried again one by one (`singly`).

`InFrames` and `InItems` say where a transfer stands, `Complete` that it is over: after
what was abandoned, the frames in order without a failure between them, and then every
item once, after its own failures.
-/

namespace ClawMessenger.Verified.Redelivery

open List

variable {M : Type}

/-! ## Logs -/

def delivered (messages : List M) : List (M × Bool) := messages.map fun message => (message, true)

def repeated (n : Nat) (message : M) : List (M × Bool) := List.replicate n (message, false)

/-- Each message once, after its failures. -/
def singly : List M → List Nat → List (M × Bool)
  | message :: messages, n :: failures => repeated n message ++ (message, true) :: singly messages failures
  | _, _ => []

/-- Attempts on the frames that a failure ended. -/
def Abandoned (frames : List M) (log : List (M × Bool)) : Prop :=
  (∀ attempt ∈ log, attempt.1 ∈ frames) ∧ (log = [] ∨ ∃ message, log.getLast? = some (message, false))

/-- `k` frames are sent since the last failure. -/
def InFrames (frames : List M) (k : Nat) (log : List (M × Bool)) : Prop :=
  ∃ before, Abandoned frames before ∧ log = before ++ delivered (frames.take k)

def Complete (frames items : List M) (log : List (M × Bool)) : Prop :=
  ∃ before failures, Abandoned frames before ∧ failures.length = items.length ∧
    log = before ++ delivered frames ++ singly items failures

/-- The items of `done` are sent; only failures of the next one follow. -/
def InItems (frames done : List M) (item : M) (log : List (M × Bool)) : Prop :=
  ∃ sent n, Complete frames done sent ∧ log = sent ++ repeated n item

/-! ## One attempt more -/

variable {frames done : List M} {message : M} {k : Nat} {log : List (M × Bool)}

theorem delivered_concat (messages : List M) (message : M) :
    delivered (messages ++ [message]) = delivered messages ++ [(message, true)] := by
  unfold delivered
  rw [map_append, map_singleton]

theorem singly_concat {messages : List M} {failures : List Nat} (h : failures.length = messages.length) (n : Nat)
    (message : M) :
    singly (messages ++ [message]) (failures ++ [n]) =
      singly messages failures ++ repeated n message ++ [(message, true)] := by
  induction messages generalizing failures with
  | nil =>
    rw [length_eq_zero_iff.mp h]
    rfl
  | cons first rest ih =>
    cases failures with
    | nil => cases h
    | cons m failures =>
      have hrest : failures.length = rest.length := Nat.succ.inj h
      rw [cons_append, cons_append, singly, ih hrest, singly]
      simp

theorem InFrames.start (frames : List M) : InFrames frames 0 [] :=
  ⟨[], ⟨(fun _ h => nomatch h), .inl rfl⟩, rfl⟩

theorem InFrames.sent (h : InFrames frames k log) (hk : frames[k]? = some message) :
    InFrames frames (k + 1) (log ++ [(message, true)]) := by
  obtain ⟨before, hbefore, rfl⟩ := h
  refine ⟨before, hbefore, ?_⟩
  rw [take_add_one, hk, Option.toList_some, delivered_concat, append_assoc]

/-- A failure abandons what was sent. -/
theorem InFrames.failed (h : InFrames frames k log) (hk : frames[k]? = some message) :
    InFrames frames 0 (log ++ [(message, false)]) := by
  obtain ⟨before, hbefore, rfl⟩ := h
  refine ⟨before ++ delivered (frames.take k) ++ [(message, false)], ⟨?_, ?_⟩, ?_⟩
  · intro attempt hattempt
    rw [mem_append, mem_append, mem_singleton] at hattempt
    rcases hattempt with (hold | hsent) | rfl
    · exact hbefore.1 attempt hold
    · obtain ⟨m, hm, rfl⟩ := mem_map.mp hsent
      exact mem_of_mem_take hm
    · exact mem_of_getElem? hk
  · exact .inr ⟨message, getLast?_concat⟩
  · exact (append_nil _).symm

theorem InFrames.complete (h : InFrames frames frames.length log) : Complete frames [] log := by
  obtain ⟨before, hbefore, rfl⟩ := h
  refine ⟨before, [], hbefore, rfl, ?_⟩
  rw [take_length]
  exact (append_nil _).symm

theorem Complete.next (h : Complete frames done log) (item : M) : InItems frames done item log :=
  ⟨log, 0, h, (append_nil _).symm⟩

theorem InItems.failed (h : InItems frames done message log) : InItems frames done message (log ++ [(message, false)]) := by
  obtain ⟨sent, n, hsent, rfl⟩ := h
  refine ⟨sent, n + 1, hsent, ?_⟩
  unfold repeated
  rw [replicate_succ', append_assoc]

theorem InItems.sent (h : InItems frames done message log) :
    Complete frames (done ++ [message]) (log ++ [(message, true)]) := by
  obtain ⟨_, n, ⟨before, failures, hbefore, hlength, rfl⟩, rfl⟩ := h
  refine ⟨before, failures ++ [n], hbefore, ?_, ?_⟩
  · rw [length_append, length_append, hlength]
    rfl
  · rw [singly_concat hlength]
    simp

end ClawMessenger.Verified.Redelivery
