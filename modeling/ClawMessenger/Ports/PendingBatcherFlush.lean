import ClawMessenger.Ports.PendingBatcher

/-!
# Every flush runs once or is dropped

A flush is in exactly one place: pending, in the hands of `FlushAll`, begun, or
dropped.  `Placed` counts these places and every critical section moves a flush
from one to another, whatever the order of calls and callbacks.  `Manned` says
that a pending entry has a live timer of its own generation, so that a batcher
at rest has nothing pending, and `counted` that the wait group counts the
callbacks that are flushing, which is what `FlushAll` waits for.
-/

namespace ClawMessenger.Ports.PendingBatcher

open Verified Verified.Machine List
open OrderedMap (get?_set get?_set_ne weightAt_of_get? weightAt_of_get?_none)

/-! ## Counting -/

def PendingEntry.brings (flush : Nat) (e : PendingEntry) : Nat := if e.flush = flush then 1 else 0

def Timer.runs (flush : Nat) (t : Timer) : Nat := if t.phase = .flushing flush then 1 else 0

def Timer.flushes (t : Timer) : Nat :=
  match t.phase with
  | .flushing _ => 1
  | _ => 0

/-- Flushes that `FlushAll` still has to run. -/
def Call.keeps (flush : Nat) : Call → Nat
  | .draining entries => entries.count flush
  | .flushing _ entries => entries.count flush
  | _ => 0

def Call.runs (flush : Nat) : Call → Nat
  | .inline f => if f = flush then 1 else 0
  | .flushing f _ => if f = flush then 1 else 0
  | _ => 0

theorem count_values (m : OrderedMap String PendingEntry) (flush : Nat) :
    (m.values.map PendingEntry.flush).count flush = m.total (PendingEntry.brings flush) := by
  obtain ⟨entries, hnd⟩ := m
  show ((entries.map Prod.snd).map PendingEntry.flush).count flush =
    (entries.map fun e => PendingEntry.brings flush e.2).sum
  clear hnd
  induction entries with
  | nil => rfl
  | cons e rest ih =>
    rw [map_cons, map_cons, count_cons, map_cons, sum_cons, ih]
    by_cases he : e.2.flush = flush
    · simp [PendingEntry.brings, he]
      omega
    · simp [PendingEntry.brings, he]

variable {flush : Nat}

theorem count_eraseIdx {entries : List Nat} {pick : Nat} (h : entries[pick]? = some flush)
    (f : Nat) :
    entries.count f = (entries.eraseIdx pick).count f + if flush = f then 1 else 0 := by
  induction entries generalizing pick with
  | nil => simp at h
  | cons e rest ih =>
    cases pick with
    | zero =>
      simp only [getElem?_cons_zero, Option.some.injEq] at h
      subst h
      rw [eraseIdx_cons_zero, count_cons]
      simp
    | succ pick =>
      rw [getElem?_cons_succ] at h
      have hrest := ih h
      rw [eraseIdx_cons_succ, count_cons, count_cons]
      omega

section History

variable (past : List (Action × List Event)) (action : Action) (evs : List Event) (flush : Nat)

@[simp] theorem began_append : began (past ++ [(action, evs)]) flush =
    began past flush + evs.count (.began flush) := by
  simp [began, events]

@[simp] theorem ended_append : ended (past ++ [(action, evs)]) flush =
    ended past flush + evs.count (.ended flush) := by
  simp [ended, events]

@[simp] theorem dropped_append : dropped (past ++ [(action, evs)]) flush =
    dropped past flush + (evs.count (.replaced flush) + evs.count (.declined flush)) := by
  simp [dropped, events]
  omega

end History

/-! ## Stopping timers -/

/-- What stopping timers leaves of one. -/
def Stopped (t t' : Timer) : Prop :=
  t'.key = t.key ∧ (t'.phase = t.phase ∨ t.phase = .armed ∧ t'.phase = .stopped)

variable {gen : Nat} {timers : OrderedMap Nat Timer} {t : Timer}

variable {timer : Nat} {t' : Timer}

theorem get?_stop (h : (stop timers timer).get? gen = some t') :
    ∃ t, timers.get? gen = some t ∧ Stopped t t' ∧ (gen ≠ timer → t' = t) := by
  unfold stop at h
  cases hget : timers.get? timer with
  | none =>
    rw [hget] at h
    exact ⟨t', h, ⟨rfl, .inl rfl⟩, fun _ => rfl⟩
  | some t =>
    rw [hget] at h
    dsimp only at h
    by_cases harmed : t.phase = .armed
    · rw [if_pos harmed, get?_set] at h
      by_cases hgen : gen = timer
      · rw [if_pos hgen, Option.some.injEq] at h
        subst h
        exact ⟨t, hgen ▸ hget, ⟨rfl, .inr ⟨harmed, rfl⟩⟩, fun hne => absurd hgen hne⟩
      · rw [if_neg hgen] at h
        exact ⟨t', h, ⟨rfl, .inl rfl⟩, fun _ => rfl⟩
    · rw [if_neg harmed] at h
      exact ⟨t', h, ⟨rfl, .inl rfl⟩, fun _ => rfl⟩

theorem get?_stop_of_get? (hne : gen ≠ timer) (h : timers.get? gen = some t) :
    (stop timers timer).get? gen = some t := by
  unfold stop
  cases hget : timers.get? timer with
  | none => exact h
  | some t₀ =>
    dsimp only
    by_cases harmed : t₀.phase = .armed
    · rw [if_pos harmed, get?_set_ne _ _ hne]
      exact h
    · rw [if_neg harmed]
      exact h

variable {weight : Timer → Nat}

section

variable
  (hweight : ∀ t : Timer, t.phase = .armed → weight { t with phase := .stopped } = weight t)
include hweight

/-- A weight that does not tell a stopped timer from an armed one. -/
theorem total_stop (timers : OrderedMap Nat Timer) (timer : Nat) :
    (stop timers timer).total weight = timers.total weight := by
  unfold stop
  cases hget : timers.get? timer with
  | none => rfl
  | some t =>
    dsimp only
    by_cases harmed : t.phase = .armed
    · rw [if_pos harmed]
      have htotal := timers.total_set weight timer { t with phase := .stopped }
      rw [weightAt_of_get? weight hget, hweight t harmed] at htotal
      omega
    · rw [if_neg harmed]

theorem total_stopAll (entries : List PendingEntry) (timers : OrderedMap Nat Timer) :
    (stopAll timers entries).total weight = timers.total weight := by
  induction entries generalizing timers with
  | nil => rfl
  | cons e rest ih =>
    show (stopAll (stop timers e.timer) rest).total weight = timers.total weight
    rw [ih, total_stop hweight]

end

theorem get?_stopAll {entries : List PendingEntry}
    (h : (stopAll timers entries).get? gen = some t') :
    ∃ t, timers.get? gen = some t ∧ Stopped t t' := by
  induction entries generalizing timers with
  | nil => exact ⟨t', h, rfl, .inl rfl⟩
  | cons e rest ih =>
    obtain ⟨t₁, h₁, hkey₁, hphase₁⟩ := ih (show (stopAll (stop timers e.timer) rest).get? gen = some t' from h)
    obtain ⟨t, ht, ⟨hkey, hphase⟩, _⟩ := get?_stop h₁
    refine ⟨t, ht, hkey₁.trans hkey, ?_⟩
    rcases hphase with hphase | ⟨harmed, hstopped⟩
    · rwa [hphase] at hphase₁
    · rw [hstopped] at hphase₁
      rcases hphase₁ with hphase₁ | ⟨habsurd, _⟩
      · exact .inr ⟨harmed, hphase₁⟩
      · cases habsurd

theorem runs_stopped (flush : Nat) (t : Timer) (h : t.phase = .armed) :
    Timer.runs flush { t with phase := .stopped } = Timer.runs flush t := by
  simp [Timer.runs, h]

theorem flushes_stopped (t : Timer) (h : t.phase = .armed) :
    Timer.flushes { t with phase := .stopped } = Timer.flushes t := by
  simp [Timer.flushes, h]

/-! ## The invariant -/

/-- Each flush brought so far is in one place. -/
def Placed (past : List (Action × List Event)) (s : State) : Prop :=
  ∀ flush, s.pending.total (PendingEntry.brings flush) + s.calls.total (Call.keeps flush) +
    began past flush + dropped past flush = if flush < s.nextFlush then 1 else 0

/-- What has begun is running or over. -/
def Running (past : List (Action × List Event)) (s : State) : Prop :=
  ∀ flush, began past flush =
    s.timers.total (Timer.runs flush) + s.calls.total (Call.runs flush) + ended past flush

/-- The entry of a key has a timer that will bring its callback. -/
def Manned (s : State) : Prop :=
  ∀ key e, s.pending.get? key = some e → e.timer = e.gen ∧
    ∃ t, s.timers.get? e.gen = some t ∧ t.key = key ∧ (t.phase = .armed ∨ t.phase = .atLock)

structure Sound (past : List (Action × List Event)) (s : State) : Prop where
  placed : Placed past s
  running : Running past s
  manned : Manned s
  counted : s.inflight = s.timers.total Timer.flushes
  empty : s.stopped = true → s.pending = ∅
  timers_le : ∀ gen t, s.timers.get? gen = some t → gen ≤ s.seq
  calls_lt : ∀ call c, s.calls.get? call = some c → call < s.nextCall

theorem sound_start (window : Int) : Sound [] (newPendingBatcher window) where
  placed _ := rfl
  running _ := rfl
  manned _ _ h := by cases h
  counted := rfl
  empty _ := rfl
  timers_le _ _ h := by cases h
  calls_lt _ _ h := by cases h

/-! ## Each critical section -/

variable {s : State}

theorem total_setPhase (weight : Timer → Nat) (phase : Phase) (h : s.timers.get? gen = some t) :
    (setPhase s gen t phase).timers.total weight + weight t =
      s.timers.total weight + weight { t with phase := phase } := by
  have htotal := s.timers.total_set weight gen { t with phase := phase }
  rwa [weightAt_of_get? weight h] at htotal

variable {call : Nat}

theorem total_setCall {c : Call} (weight : Call → Nat) (c' : Call)
    (h : s.calls.get? call = some c) :
    (setCall s call c').calls.total weight + weight c = s.calls.total weight + weight c' := by
  have htotal := s.calls.total_set weight call c'
  rwa [weightAt_of_get? weight h] at htotal

theorem total_newCall (weight : Call → Nat) (c : Call)
    (h : ∀ call c, s.calls.get? call = some c → call < s.nextCall) :
    (s.calls.set s.nextCall c).total weight = s.calls.total weight + weight c := by
  have hnone : s.calls.get? s.nextCall = none := by
    cases hget : s.calls.get? s.nextCall with
    | none => rfl
    | some c' => exact absurd (h _ _ hget) (Nat.lt_irrefl _)
  have htotal := s.calls.total_set weight s.nextCall c
  rw [weightAt_of_get?_none weight hnone] at htotal
  omega

variable {phase : Phase}

theorem get?_setPhase {gen' : Nat} (h : (setPhase s gen t phase).timers.get? gen' = some t') :
    (gen' = gen ∧ t' = { t with phase := phase }) ∨ s.timers.get? gen' = some t' := by
  have hset : (s.timers.set gen { t with phase := phase }).get? gen' = some t' := h
  rw [get?_set] at hset
  by_cases hgen : gen' = gen
  · rw [if_pos hgen, Option.some.injEq] at hset
    exact .inl ⟨hgen, hset.symm⟩
  · rw [if_neg hgen] at hset
    exact .inr hset

theorem timers_le_setPhase (phase : Phase)
    (hle : ∀ gen t, s.timers.get? gen = some t → gen ≤ s.seq) (h : s.timers.get? gen = some t)
    (gen' : Nat) (t' : Timer) (h' : (setPhase s gen t phase).timers.get? gen' = some t') :
    gen' ≤ s.seq := by
  rcases get?_setPhase h' with ⟨rfl, _⟩ | h'
  · exact hle _ _ h
  · exact hle _ _ h'

theorem calls_lt_setCall {c c' : Call}
    (hlt : ∀ call c, s.calls.get? call = some c → call < s.nextCall)
    (h : s.calls.get? call = some c) (call' : Nat) (d : Call)
    (h' : (setCall s call c').calls.get? call' = some d) : call' < s.nextCall := by
  have hset : (s.calls.set call c').get? call' = some d := h'
  rw [get?_set] at hset
  by_cases hcall : call' = call
  · exact hcall ▸ hlt _ _ h
  · rw [if_neg hcall] at hset
    exact hlt _ _ hset

theorem calls_lt_newCall {c : Call}
    (hlt : ∀ call c, s.calls.get? call = some c → call < s.nextCall) (call : Nat) (d : Call)
    (h : (s.calls.set s.nextCall c).get? call = some d) : call < s.nextCall + 1 := by
  rw [get?_set] at h
  by_cases hcall : call = s.nextCall
  · omega
  · rw [if_neg hcall] at h
    exact Nat.lt_succ_of_lt (hlt _ _ h)

/-- The callback of a timer that no entry has. -/
theorem Manned.setPhase (h : Manned s) (ht : s.timers.get? gen = some t)
    (hfree : ∀ e, s.pending.get? t.key = some e → e.gen ≠ gen) (phase : Phase) :
    Manned (setPhase s gen t phase) := by
  intro key e he
  obtain ⟨htimer, t', ht', hkey, hphase⟩ := h key e he
  have hne : e.gen ≠ gen := by
    intro heq
    rw [heq, ht, Option.some.injEq] at ht'
    subst ht'
    exact hfree e (hkey ▸ he) heq
  refine ⟨htimer, t', ?_, hkey, hphase⟩
  show (s.timers.set gen { t with phase := phase }).get? e.gen = some t'
  rw [get?_set_ne _ _ hne]
  exact ht'

variable {key : String}

/-- `afterFunc` for a key, once the timer of its old entry is stopped. -/
theorem Manned.afterFunc
    (hkept : ∀ key' e, key' ≠ key → s.pending.get? key' = some e → e.timer = e.gen ∧ ∃ t, timers.get? e.gen = some t ∧ t.key = key' ∧ (t.phase = .armed ∨ t.phase = .atLock))
    (hle : ∀ gen t, timers.get? gen = some t → gen ≤ s.seq) :
    Manned { afterFunc { s with seq := s.seq + 1, timers := timers } key (s.seq + 1) with
      pending := s.pending.set key ⟨s.seq + 1, flush, s.seq + 1⟩ } := by
  intro key' e he
  have hset : (s.pending.set key ⟨s.seq + 1, flush, s.seq + 1⟩).get? key' = some e := he
  show e.timer = e.gen ∧ ∃ t,
    (timers.set (s.seq + 1) ⟨key, s.now + s.window, .armed⟩).get? e.gen = some t ∧
      t.key = key' ∧ (t.phase = .armed ∨ t.phase = .atLock)
  rw [get?_set] at hset
  by_cases hkey : key' = key
  · rw [if_pos hkey, Option.some.injEq] at hset
    subst hset
    exact ⟨rfl, _, OrderedMap.get?_set_self _ _ _, hkey.symm, .inl rfl⟩
  · rw [if_neg hkey] at hset
    obtain ⟨htimer, t, ht, hrest⟩ := hkept key' e hkey hset
    refine ⟨htimer, t, ?_, hrest⟩
    have hlt := hle _ _ ht
    have hne : e.gen ≠ s.seq + 1 := by omega
    rw [get?_set_ne _ _ hne]
    exact ht

/-- The timers after an entry's timer was stopped still serve the other keys. -/
theorem Manned.others {e : PendingEntry} (h : Manned s) (he : s.pending.get? key = some e)
    (key' : String) (e' : PendingEntry) (hne : key' ≠ key) (he' : s.pending.get? key' = some e') :
    e'.timer = e'.gen ∧
      ∃ t, (stop s.timers e.timer).get? e'.gen = some t ∧ t.key = key' ∧
        (t.phase = .armed ∨ t.phase = .atLock) := by
  obtain ⟨htimer, t, ht, hkey, _⟩ := h key e he
  obtain ⟨htimer', t', ht', hkey', hphase'⟩ := h key' e' he'
  refine ⟨htimer', t', get?_stop_of_get? ?_ ht', hkey', hphase'⟩
  intro heq
  rw [heq, htimer, ht, Option.some.injEq] at ht'
  subst ht'
  exact hne (hkey'.symm.trans hkey)

variable {past : List (Action × List Event)} {s : State}

/-- The armed entry of a call, once the timer of the key's old entry is stopped. -/
def arm (s : State) (key : String) (timers : OrderedMap Nat Timer) : State :=
  { afterFunc { s with seq := s.seq + 1, timers := timers, nextFlush := s.nextFlush + 1 } key
      (s.seq + 1) with
    pending := s.pending.set key ⟨s.seq + 1, s.nextFlush, s.seq + 1⟩ }

theorem total_arm (hle : ∀ gen t, timers.get? gen = some t → gen ≤ s.seq) (key : String)
    (hweight : ∀ t : Timer, t.phase = .armed → weight t = 0) :
    (arm s key timers).timers.total weight = timers.total weight := by
  have hnone : timers.get? (s.seq + 1) = none := by
    cases hget : timers.get? (s.seq + 1) with
    | none => rfl
    | some t =>
      have hlt := hle _ _ hget
      omega
  have htotal := timers.total_set weight (s.seq + 1) ⟨key, s.now + s.window, .armed⟩
  rw [weightAt_of_get?_none weight hnone, hweight _ rfl] at htotal
  show (timers.set (s.seq + 1) ⟨key, s.now + s.window, .armed⟩).total weight = timers.total weight
  omega

variable {evs : List Event}

section

variable (h : Sound past s)
include h

/-- A new entry for a key: its flush is placed, that of the old entry dropped. -/
theorem Sound.arm (hstopped : s.stopped = false) (timers : OrderedMap Nat Timer) {action : Action}
    (hkept : ∀ key' e, key' ≠ key → s.pending.get? key' = some e → e.timer = e.gen ∧ ∃ t, timers.get? e.gen = some t ∧ t.key = key' ∧ (t.phase = .armed ∨ t.phase = .atLock))
    (hle : ∀ gen t, timers.get? gen = some t → gen ≤ s.seq)
    (htotal : ∀ weight : Timer → Nat, (∀ t : Timer, t.phase = .armed → weight { t with phase := .stopped } = weight t) → timers.total weight = s.timers.total weight)
    (hquiet : ∀ flush, evs.count (.began flush) = 0 ∧ evs.count (.ended flush) = 0)
    (hdropped : ∀ flush, evs.count (.replaced flush) + evs.count (.declined flush) = s.pending.weightAt (PendingEntry.brings flush) key) :
    Sound (past ++ [(action, evs)]) (arm s key timers) := by
  refine ⟨?_, ?_, Manned.afterFunc hkept hle, ?_, ?_, ?_, h.calls_lt⟩
  · intro flush
    have hplaced := h.placed flush
    have hset := s.pending.total_set (PendingEntry.brings flush) key
      ⟨s.seq + 1, s.nextFlush, s.seq + 1⟩
    show (s.pending.set key ⟨s.seq + 1, s.nextFlush, s.seq + 1⟩).total (PendingEntry.brings flush) +
      s.calls.total (Call.keeps flush) + began (past ++ [(action, evs)]) flush +
        dropped (past ++ [(action, evs)]) flush = if flush < s.nextFlush + 1 then 1 else 0
    rw [began_append, dropped_append, (hquiet flush).1, hdropped flush]
    by_cases hflush : s.nextFlush = flush
    · simp only [PendingEntry.brings, hflush, if_true] at hset hplaced ⊢
      rw [if_neg (Nat.lt_irrefl flush)] at hplaced
      rw [if_pos (Nat.lt_succ_self flush)]
      omega
    · have hlt : flush < s.nextFlush + 1 ↔ flush < s.nextFlush := by omega
      simp only [PendingEntry.brings, hflush, if_false, hlt] at hset ⊢
      omega
  · intro flush
    have hrunning := h.running flush
    have hzero : ∀ t : Timer, t.phase = .armed → Timer.runs flush t = 0 := by
      intro t ht
      simp [Timer.runs, ht]
    have htimers := total_arm (s := s) hle key hzero
    rw [htotal _ (runs_stopped flush)] at htimers
    rw [began_append, ended_append, (hquiet flush).1, (hquiet flush).2, htimers]
    exact hrunning
  · have hzero : ∀ t : Timer, t.phase = .armed → Timer.flushes t = 0 := by
      intro t ht
      simp [Timer.flushes, ht]
    have htimers := total_arm (s := s) hle key hzero
    rw [htotal _ flushes_stopped] at htimers
    rw [htimers]
    exact h.counted
  · intro habsurd
    rw [show s.stopped = true from habsurd] at hstopped
    cases hstopped
  · intro gen t ht
    have hset : (timers.set (s.seq + 1) ⟨key, s.now + s.window, .armed⟩).get? gen = some t := ht
    show gen ≤ s.seq + 1
    rw [get?_set] at hset
    by_cases hgen : gen = s.seq + 1
    · omega
    · rw [if_neg hgen] at hset
      exact Nat.le_succ_of_le (hle _ _ hset)

/-- A stopped batcher starts the flush in the call. -/
theorem Sound.inline (action : Action) :
    Sound (past ++ [(action, [.began s.nextFlush])])
      { s with nextFlush := s.nextFlush + 1, calls := s.calls.set s.nextCall (.inline s.nextFlush),
               nextCall := s.nextCall + 1 } := by
  refine ⟨?_, ?_, h.manned, h.counted, h.empty, h.timers_le, calls_lt_newCall h.calls_lt⟩
  · intro flush
    have hplaced := h.placed flush
    have hcalls := total_newCall (Call.keeps flush) (.inline s.nextFlush) h.calls_lt
    simp only [Call.keeps, Nat.add_zero] at hcalls
    simp only [began_append, dropped_append, count_singleton, hcalls]
    by_cases hflush : s.nextFlush = flush
    · simp [hflush] at hplaced ⊢
      omega
    · have hlt : flush < s.nextFlush + 1 ↔ flush < s.nextFlush := by omega
      simp [hflush, hlt]
      omega
  · intro flush
    have hrunning := h.running flush
    have hcalls := total_newCall (Call.runs flush) (.inline s.nextFlush) h.calls_lt
    simp only [Call.runs] at hcalls
    simp only [began_append, ended_append, count_singleton, hcalls]
    by_cases hflush : s.nextFlush = flush
    · simp [hflush]
      omega
    · simp [hflush]
      omega

/-- A declined flush is dropped, and nothing else changes. -/
theorem Sound.decline (action : Action) :
    Sound (past ++ [(action, [.declined s.nextFlush])])
      { s with seq := s.seq + 1, nextFlush := s.nextFlush + 1 } := by
  refine ⟨?_, ?_, h.manned, h.counted, h.empty, ?_, h.calls_lt⟩
  · intro flush
    have hplaced := h.placed flush
    by_cases hflush : s.nextFlush = flush
    · simp [hflush] at hplaced ⊢
      omega
    · have hlt : flush < s.nextFlush + 1 ↔ flush < s.nextFlush := by omega
      simp [hflush, hlt]
      omega
  · intro flush
    have hrunning := h.running flush
    simpa [began_append, ended_append] using hrunning
  · intro gen t ht
    exact Nat.le_succ_of_le (h.timers_le gen t ht)

theorem Sound.schedule (key : String) (replace : Bool) (action : Action) :
    Sound (past ++ [(action, (schedule s key replace).1)]) (schedule s key replace).2 := by
  unfold PendingBatcher.schedule
  dsimp only
  by_cases hstopped : s.stopped = true
  · rw [if_pos hstopped]
    exact h.inline action
  · rw [if_neg hstopped]
    have hrunning : s.stopped = false := by simpa using hstopped
    cases hget : s.pending.get? key with
    | none =>
      dsimp only
      apply h.arm hrunning s.timers
      · intro key' e _ he
        exact h.manned key' e he
      · exact h.timers_le
      · intro weight _
        rfl
      · intro flush
        exact ⟨rfl, rfl⟩
      · intro flush
        rw [weightAt_of_get?_none _ hget]
        rfl
    | some e =>
      dsimp only
      cases replace with
      | false => exact h.decline action
      | true =>
        apply h.arm hrunning (stop s.timers e.timer)
        · exact h.manned.others hget
        · intro gen t ht
          obtain ⟨t₀, ht₀, _⟩ := get?_stop ht
          exact h.timers_le gen t₀ ht₀
        · intro weight hweight
          exact total_stop hweight s.timers e.timer
        · intro flush
          simp
        · intro flush
          rw [weightAt_of_get? _ hget]
          by_cases hflush : e.flush = flush
          · simp [PendingEntry.brings, hflush]
          · simp [PendingEntry.brings, hflush]

/-- A step of a callback that leaves the pending entries alone. -/
theorem Sound.ofPhase (ht : s.timers.get? gen = some t) {inflight : Nat} (action : Action)
    (hmanned : Manned (setPhase s gen t phase))
    (hquiet : ∀ flush, evs.count (.began flush) = 0 ∧ evs.count (.replaced flush) + evs.count (.declined flush) = 0)
    (hruns : ∀ flush, Timer.runs flush t = Timer.runs flush { t with phase := phase } + evs.count (.ended flush))
    (hinflight : s.inflight + Timer.flushes { t with phase := phase } = inflight + Timer.flushes t) :
    Sound (past ++ [(action, evs)]) { setPhase s gen t phase with inflight := inflight } := by
  refine ⟨?_, ?_, hmanned, ?_, h.empty, timers_le_setPhase phase h.timers_le ht, h.calls_lt⟩
  · intro flush
    have hplaced := h.placed flush
    rw [began_append, dropped_append, (hquiet flush).1, (hquiet flush).2]
    exact hplaced
  · intro flush
    have hrunning := h.running flush
    have htotal := total_setPhase (Timer.runs flush) phase ht
    have hflush := hruns flush
    rw [began_append, ended_append, (hquiet flush).1]
    show began past flush + 0 = (setPhase s gen t phase).timers.total (Timer.runs flush) +
      s.calls.total (Call.runs flush) + (ended past flush + evs.count (.ended flush))
    omega
  · have hcounted := h.counted
    have htotal := total_setPhase Timer.flushes phase ht
    show inflight = (setPhase s gen t phase).timers.total Timer.flushes
    omega

theorem Sound.idle (action : Action) : Sound (past ++ [(action, [])]) s := by
  refine ⟨?_, ?_, h.manned, h.counted, h.empty, h.timers_le, h.calls_lt⟩
  · intro flush
    simpa using h.placed flush
  · intro flush
    simpa using h.running flush

theorem Sound.fire (gen : Nat) (action : Action) :
    Sound (past ++ [(action, [])]) (fire s gen) := by
  unfold PendingBatcher.fire
  cases ht : s.timers.get? gen with
  | none => exact h.idle action
  | some t =>
    dsimp only
    by_cases hdue : t.phase = .armed ∧ t.due ≤ s.now
    · rw [if_pos hdue]
      have hmanned : Manned (PendingBatcher.setPhase s gen t .atLock) := by
        intro key e he
        obtain ⟨htimer, t', ht', hkey, hphase⟩ := h.manned key e he
        refine ⟨htimer, ?_⟩
        show ∃ t'', (s.timers.set gen { t with phase := .atLock }).get? e.gen = some t'' ∧
          t''.key = key ∧ (t''.phase = .armed ∨ t''.phase = .atLock)
        rw [get?_set]
        by_cases hgen : e.gen = gen
        · rw [if_pos hgen]
          rw [hgen, ht, Option.some.injEq] at ht'
          subst ht'
          exact ⟨_, rfl, hkey, .inr rfl⟩
        · rw [if_neg hgen]
          exact ⟨t', ht', hkey, hphase⟩
      apply h.ofPhase ht action hmanned
      · intro flush
        exact ⟨rfl, rfl⟩
      · intro flush
        simp [Timer.runs, hdue.1]
      · simp [Timer.flushes, hdue.1]
    · rw [if_neg hdue]
      exact h.idle action

/-- The entry of a callback that has the lock: it is of another generation, or
its flush is taken. -/
theorem Sound.onFire (ht : s.timers.get? gen = some t) (hphase : t.phase = .atLock)
    (action : Action) :
    Sound (past ++ [(action, (onFire s gen t).1)]) (onFire s gen t).2 := by
  have hleave : (∀ e, s.pending.get? t.key = some e → e.gen ≠ gen) →
      Sound (past ++ [(action, [])]) (PendingBatcher.setPhase s gen t .returned) := by
    intro hfree
    apply h.ofPhase ht action (h.manned.setPhase ht hfree _)
    · intro flush
      exact ⟨rfl, rfl⟩
    · intro flush
      simp [Timer.runs, hphase]
    · simp [Timer.flushes, hphase]
  unfold PendingBatcher.onFire
  cases hget : s.pending.get? t.key with
  | none =>
    apply hleave
    intro e he
    rw [hget] at he
    cases he
  | some e =>
    dsimp only
    by_cases hstale : (s.stopped || e.gen != gen) = true
    · rw [if_pos hstale]
      apply hleave
      intro e' he'
      rw [hget, Option.some.injEq] at he'
      subst he'
      intro hgen
      rcases Bool.or_eq_true _ _ ▸ hstale with hstopped | hne
      · rw [h.empty hstopped] at hget
        cases hget
      · simp [hgen] at hne
    · rw [if_neg hstale]
      have hlive : s.stopped = false ∧ e.gen = gen := by simpa using hstale
      refine ⟨?_, ?_, ?_, ?_, ?_, ?_, h.calls_lt⟩
      · intro flush
        have hplaced := h.placed flush
        have herase := s.pending.total_erase (PendingEntry.brings flush) t.key
        rw [weightAt_of_get? _ hget] at herase
        simp only [PendingEntry.brings] at herase
        rw [began_append, dropped_append, count_singleton]
        show (s.pending.erase t.key).total (PendingEntry.brings flush) +
          s.calls.total (Call.keeps flush) + _ + (dropped past flush + 0) =
            if flush < s.nextFlush then 1 else 0
        by_cases hflush : e.flush = flush
        · simp [hflush] at herase ⊢
          omega
        · simp [hflush] at herase ⊢
          omega
      · intro flush
        have hrunning := h.running flush
        have htotal := total_setPhase (Timer.runs flush) (.flushing e.flush) ht
        rw [began_append, ended_append, count_singleton]
        show began past flush + _ =
          (PendingBatcher.setPhase s gen t (.flushing e.flush)).timers.total (Timer.runs flush) +
            s.calls.total (Call.runs flush) + (ended past flush + 0)
        by_cases hflush : e.flush = flush
        · simp [hflush, Timer.runs, hphase] at htotal ⊢
          omega
        · simp [hflush, Timer.runs, hphase] at htotal ⊢
          omega
      · intro key e' he'
        have hother : (s.pending.erase t.key).get? key = some e' := he'
        have hne : key ≠ t.key := by
          intro heq
          rw [heq, OrderedMap.get?_erase_self] at hother
          cases hother
        rw [OrderedMap.get?_erase_ne _ hne] at hother
        obtain ⟨htimer, t', ht', hkey, hphase'⟩ := h.manned key e' hother
        refine ⟨htimer, t', ?_, hkey, hphase'⟩
        show (s.timers.set gen { t with phase := .flushing e.flush }).get? e'.gen = some t'
        rw [get?_set_ne _ _ ?_]
        · exact ht'
        · intro heq
          rw [heq, ht, Option.some.injEq] at ht'
          subst ht'
          exact hne hkey.symm
      · have hcounted := h.counted
        have htotal := total_setPhase Timer.flushes (.flushing e.flush) ht
        have hbefore : Timer.flushes t = 0 := by simp [Timer.flushes, hphase]
        have hafter : Timer.flushes { t with phase := .flushing e.flush } = 1 := rfl
        show s.inflight + 1 =
          (PendingBatcher.setPhase s gen t (.flushing e.flush)).timers.total Timer.flushes
        omega
      · intro hstopped
        rw [show s.stopped = true from hstopped] at hlive
        cases hlive.1
      · exact timers_le_setPhase _ h.timers_le ht

theorem Sound.callback (gen : Nat) (action : Action) :
    Sound (past ++ [(action, (callback s gen).1)]) (callback s gen).2 := by
  unfold PendingBatcher.callback
  cases ht : s.timers.get? gen with
  | none => exact h.idle action
  | some t =>
    dsimp only
    cases hphase : t.phase with
    | atLock => exact h.onFire ht hphase action
    | flushing flush =>
      have hcounted := h.counted
      have hle : Timer.flushes t ≤ s.timers.total Timer.flushes := by
        have hweight := s.timers.weightAt_le_total Timer.flushes gen
        rwa [weightAt_of_get? _ ht] at hweight
      have hone : Timer.flushes t = 1 := by simp [Timer.flushes, hphase]
      apply h.ofPhase ht action
      · apply h.manned.setPhase ht
        intro e he hgen
        obtain ⟨_, t', ht', _, hphase'⟩ := h.manned _ e he
        rw [hgen, ht, Option.some.injEq] at ht'
        subst ht'
        rw [hphase] at hphase'
        rcases hphase' with habsurd | habsurd
        · cases habsurd
        · cases habsurd
      · intro f
        simp
      · intro f
        by_cases hflush : flush = f
        · simp [Timer.runs, hphase, hflush]
        · simp [Timer.runs, hphase, hflush]
      · rw [hone]
        show s.inflight + 0 = s.inflight - 1 + 1
        omega
    | armed | stopped | returned => exact h.idle action

/-- `FlushAll` takes over what is pending. -/
theorem Sound.flushAll (action : Action) :
    Sound (past ++ [(action, [])]) (flushAll s) := by
  refine ⟨?_, ?_, ?_, ?_, fun _ => rfl, ?_, calls_lt_newCall h.calls_lt⟩
  · intro flush
    have hplaced := h.placed flush
    have hcalls := total_newCall (Call.keeps flush)
      (.draining (s.pending.values.map PendingEntry.flush)) h.calls_lt
    simp only [Call.keeps, count_values] at hcalls
    rw [began_append, dropped_append]
    show (∅ : OrderedMap String PendingEntry).total (PendingEntry.brings flush) +
      (s.calls.set s.nextCall
        (.draining (s.pending.values.map PendingEntry.flush))).total (Call.keeps flush) +
        (began past flush + 0) + (dropped past flush + (0 + 0)) = if flush < s.nextFlush then 1 else 0
    have hnil : (∅ : OrderedMap String PendingEntry).total (PendingEntry.brings flush) = 0 := rfl
    omega
  · intro flush
    have hrunning := h.running flush
    have hcalls := total_newCall (Call.runs flush)
      (.draining (s.pending.values.map PendingEntry.flush)) h.calls_lt
    simp only [Call.runs] at hcalls
    have htimers := total_stopAll (runs_stopped flush) s.pending.values s.timers
    rw [began_append, ended_append]
    show began past flush + 0 = (stopAll s.timers s.pending.values).total (Timer.runs flush) +
      (s.calls.set s.nextCall
        (.draining (s.pending.values.map PendingEntry.flush))).total (Call.runs flush) +
        (ended past flush + 0)
    omega
  · intro key e he
    cases he
  · show s.inflight = (stopAll s.timers s.pending.values).total Timer.flushes
    rw [total_stopAll flushes_stopped]
    exact h.counted
  · intro gen t ht
    obtain ⟨t₀, ht₀, _⟩ := get?_stopAll (show (stopAll s.timers _).get? gen = some t from ht)
    exact h.timers_le gen t₀ ht₀

end

/-- What a step of a call does with the flushes it has: one that is kept is
begun, one that runs is over. -/
structure Moves (c c' : Call) (evs : List Event) : Prop where
  quiet : ∀ flush, evs.count (.replaced flush) + evs.count (.declined flush) = 0
  keeps : ∀ flush, Call.keeps flush c = Call.keeps flush c' + evs.count (.began flush)
  runs : ∀ flush, Call.runs flush c + evs.count (.began flush) =
    Call.runs flush c' + evs.count (.ended flush)
  drains : ∀ flush, c' ≠ .inline flush

theorem goOn_cases (s : State) (call pick : Nat) :
    goOn s call pick = ([], s) ∨
      ∃ c c' evs, s.calls.get? call = some c ∧ goOn s call pick = (evs, setCall s call c') ∧
        Moves c c' evs ∧ c ≠ .returned ∧
        (c' = .returned → s.inflight = 0 ∨ ∃ flush, c = .inline flush) := by
  unfold goOn
  cases hc : s.calls.get? call with
  | none => exact .inl rfl
  | some c =>
    cases c with
    | inline flush =>
      refine .inr ⟨_, _, _, rfl, rfl, ⟨?_, ?_, ?_, nofun⟩, nofun, fun _ => .inr ⟨flush, rfl⟩⟩
      · intro f
        rfl
      · intro f
        simp [Call.keeps]
      · intro f
        simp [Call.runs, count_singleton]
    | draining entries =>
      cases entries with
      | nil =>
        dsimp only
        by_cases hdone : s.inflight = 0
        · rw [if_pos hdone]
          refine .inr ⟨_, _, _, rfl, rfl, ⟨?_, ?_, ?_, nofun⟩, nofun, fun _ => .inl hdone⟩
          · intro f
            rfl
          · intro f
            rfl
          · intro f
            rfl
        · rw [if_neg hdone]
          exact .inl rfl
      | cons entry entries =>
        dsimp only
        cases hpick : (entry :: entries)[pick]? with
        | none => exact .inl rfl
        | some flush =>
          refine .inr ⟨_, _, _, rfl, rfl, ⟨?_, ?_, ?_, nofun⟩, nofun, nofun⟩
          · intro f
            rfl
          · intro f
            have hcount := count_eraseIdx hpick f
            simpa [Call.keeps, count_singleton] using hcount
          · intro f
            simp [Call.runs, count_singleton]
    | flushing flush entries =>
      refine .inr ⟨_, _, _, rfl, rfl, ⟨?_, ?_, ?_, nofun⟩, nofun, nofun⟩
      · intro f
        rfl
      · intro f
        simp [Call.keeps]
      · intro f
        simp [Call.runs, count_singleton]
    | returned => exact .inl rfl

theorem Sound.goOn (h : Sound past s) (call pick : Nat) (action : Action) :
    Sound (past ++ [(action, (goOn s call pick).1)]) (goOn s call pick).2 := by
  rcases goOn_cases s call pick with heq | ⟨c, c', evs, hc, heq, hmoves, _⟩
  · rw [heq]
    exact h.idle action
  · rw [heq]
    refine ⟨?_, ?_, h.manned, h.counted, h.empty, h.timers_le, calls_lt_setCall h.calls_lt hc⟩
    · intro flush
      have hplaced := h.placed flush
      have htotal := total_setCall (Call.keeps flush) c' hc
      have hflush := hmoves.keeps flush
      rw [began_append, dropped_append, hmoves.quiet flush]
      show s.pending.total (PendingEntry.brings flush) +
        (setCall s call c').calls.total (Call.keeps flush) +
        (began past flush + evs.count (.began flush)) + (dropped past flush + 0) =
          if flush < s.nextFlush then 1 else 0
      omega
    · intro flush
      have hrunning := h.running flush
      have htotal := total_setCall (Call.runs flush) c' hc
      have hflush := hmoves.runs flush
      rw [began_append, ended_append]
      show began past flush + evs.count (.began flush) = s.timers.total (Timer.runs flush) +
        (setCall s call c').calls.total (Call.runs flush) +
        (ended past flush + evs.count (.ended flush))
      omega

theorem Sound.tick (h : Sound past s) (d : Nat) (action : Action) :
    Sound (past ++ [(action, [])]) { s with now := s.now + d } := by
  obtain ⟨hplaced, hrunning, hmanned, hcounted, hempty, htimers, hcalls⟩ := h.idle action
  exact ⟨hplaced, hrunning, hmanned, hcounted, hempty, htimers, hcalls⟩

theorem Sound.step (h : Sound past s) (action : Action) :
    Sound (past ++ [(action, (step s action).1)]) (step s action).2 := by
  cases action with
  | schedule key replace => exact h.schedule key replace _
  | flushAll => exact h.flushAll _
  | tick d => exact h.tick d _
  | fire gen => exact h.fire gen _
  | callback gen => exact h.callback gen _
  | goOn call pick => exact h.goOn call pick _

theorem sound_of_reach {allowed : Cfg → Action → Prop} {window : Int} {c : Cfg}
    (h : Reach step allowed (start (newPendingBatcher window)) c) :
    Sound c.past c.state := by
  apply Reach.invariant (I := fun c => Sound c.past c.state) _ h (sound_start window)
  intro d action _ hd
  exact hd.step action

end ClawMessenger.Ports.PendingBatcher
