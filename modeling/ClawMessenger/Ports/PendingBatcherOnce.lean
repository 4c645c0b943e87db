import ClawMessenger.Ports.PendingBatcherFlush

/-!
# What callers of the debouncer rely on

The counts of `Sound` say that no flush runs twice and that a dropped one never
runs.  The rest is about runs: the latest flush of a key is never dropped
(`Latest`), a flush that `FlushAll` found is over when it returns (`Owed`), and
every batcher comes to rest, by a rank that each step of a goroutine lowers.
-/

namespace ClawMessenger.Ports.PendingBatcher

open Verified Verified.Machine
open Timer (due flushes runs)
open OrderedMap (get?_set get?_set_ne get?_set_self total weightAt weightAt_of_get?)

/-! ## Runs and histories -/

theorem total_eq_zero {κ α : Type} [DecidableEq κ] {m : OrderedMap κ α} {weight : α → Nat}
    (h : ∀ key value, m.get? key = some value → weight value = 0) : m.total weight = 0 := by
  have hzero : m.total weight = m.total fun _ => 0 := OrderedMap.total_congr h
  rw [hzero]
  simp [total]

theorem count_le_of_prefix {past past' : List (Action × List Event)} (h : past <+: past')
    (event : Event) : (events past).count event ≤ (events past').count event := by
  obtain ⟨rest, rfl⟩ := h
  rw [events, events, List.flatMap_append, List.count_append]
  exact Nat.le_add_right _ _

variable {past : List (Action × List Event)} {s : State}

theorem Sound.began_le (h : Sound past s) (flush : Nat) : began past flush ≤ 1 := by
  have hplaced := h.placed flush
  by_cases hlt : flush < s.nextFlush
  · rw [if_pos hlt] at hplaced
    omega
  · rw [if_neg hlt] at hplaced
    omega

variable {flush call : Nat} {key : String}

theorem Sound.not_began (h : Sound past s) (hdropped : 1 ≤ dropped past flush) :
    began past flush = 0 := by
  have hplaced := h.placed flush
  by_cases hlt : flush < s.nextFlush
  · rw [if_pos hlt] at hplaced
    omega
  · rw [if_neg hlt] at hplaced
    omega

theorem Sound.ranOnce (h : Sound past s) (hended : 1 ≤ ended past flush) :
    RanOnce past flush := by
  have hrunning := h.running flush
  have hle := h.began_le flush
  constructor
  · omega
  · omega

variable {e : PendingEntry}

/-- A pending flush has been brought and not begun. -/
theorem Sound.pending_spec (h : Sound past s) (he : s.pending.get? key = some e) :
    e.flush < s.nextFlush ∧ began past e.flush = 0 := by
  have hplaced := h.placed e.flush
  have hle := s.pending.weightAt_le_total (PendingEntry.brings e.flush) key
  rw [weightAt_of_get? _ he, PendingEntry.brings, if_pos rfl] at hle
  by_cases hlt : e.flush < s.nextFlush
  · rw [if_pos hlt] at hplaced
    exact ⟨hlt, by omega⟩
  · rw [if_neg hlt] at hplaced
    omega

theorem Sound.not_stopped (h : Sound past s) (he : s.pending.get? key = some e) :
    s.stopped = false := by
  cases hstopped : s.stopped with
  | false => rfl
  | true =>
    rw [h.empty hstopped] at he
    cases he

/-- At rest every flush has run once or was dropped. -/
theorem Sound.at_rest (h : Sound past s) (hrest : AtRest s) (hlt : flush < s.nextFlush)
    (hkept : dropped past flush = 0) : RanOnce past flush := by
  have hpending : s.pending.total (PendingEntry.brings flush) = 0 := by
    apply total_eq_zero
    intro key e he
    obtain ⟨_, t, ht, _, hphase⟩ := h.manned key e he
    have hdone := hrest.1 _ _ ht
    rcases hphase with hphase | hphase
    · rw [hphase] at hdone
      simp at hdone
    · rw [hphase] at hdone
      simp at hdone
  have hcalls : ∀ weight : Call → Nat, weight .returned = 0 → s.calls.total weight = 0 := by
    intro weight hweight
    apply total_eq_zero
    intro call c hc
    rw [hrest.2 call c hc, hweight]
  have htimers : s.timers.total (runs flush) = 0 := by
    apply total_eq_zero
    intro gen t ht
    rcases hrest.1 gen t ht with hphase | hphase
    · simp [runs, hphase]
    · simp [runs, hphase]
  have hplaced := h.placed flush
  have hrunning := h.running flush
  rw [hpending, hcalls (Call.keeps flush) rfl, hkept, if_pos hlt] at hplaced
  rw [htimers, hcalls (Call.runs flush) rfl] at hrunning
  constructor
  · omega
  · omega

/-! ## The latest flush of a key -/

def Action.isCall : Action → Bool
  | .schedule _ _ => true
  | .flushAll => true
  | _ => false

/-- What any step of a goroutine, the clock or `FlushAll` does to the pending
entries. -/
structure Shrinks (s s' : State) (evs : List Event) : Prop where
  pending : ∀ key e, s'.pending.get? key = some e → s.pending.get? key = some e
  quiet : ∀ flush, evs.count (.replaced flush) + evs.count (.declined flush) = 0
  nextFlush : s'.nextFlush = s.nextFlush

theorem shrinks_refl (s : State) : Shrinks s s [] := ⟨fun _ _ h => h, fun _ => rfl, rfl⟩

/-- A step of a callback: none, it returns at the lock, it begins the flush of its
entry, or its flush is over. -/
inductive Callback (s : State) (gen : Nat) : List Event × State → Prop where
  | idle : Callback s gen ([], s)
  | left (t : Timer) (ht : s.timers.get? gen = some t) (hphase : t.phase = .atLock) :
    Callback s gen ([], setPhase s gen t .returned)
  | begins (t : Timer) (e : PendingEntry) (ht : s.timers.get? gen = some t) (hphase : t.phase = .atLock) :
    Callback s gen ([.began e.flush], { setPhase s gen t (.flushing e.flush) with
      pending := s.pending.erase t.key, inflight := s.inflight + 1 })
  | ends (t : Timer) (flush : Nat) (ht : s.timers.get? gen = some t) (hphase : t.phase = .flushing flush) :
    Callback s gen ([.ended flush], { setPhase s gen t .returned with inflight := s.inflight - 1 })

theorem callback_cases (s : State) (gen : Nat) : Callback s gen (callback s gen) := by
  unfold callback
  cases ht : s.timers.get? gen with
  | none => exact .idle
  | some t =>
    dsimp only
    cases hphase : t.phase with
    | atLock =>
      dsimp only
      unfold onFire
      cases s.pending.get? t.key with
      | none => exact .left t ht hphase
      | some e =>
        dsimp only
        by_cases hstale : (s.stopped || e.gen != gen) = true
        · rw [if_pos hstale]
          exact .left t ht hphase
        · rw [if_neg hstale]
          exact .begins t e ht hphase
    | flushing flush => exact .ends t flush ht hphase
    | armed | stopped | returned => exact .idle

theorem callback_shrinks (s : State) (gen : Nat) :
    Shrinks s (callback s gen).2 (callback s gen).1 := by
  have hcase := callback_cases s gen
  generalize callback s gen = after at hcase ⊢
  cases hcase with
  | idle => exact shrinks_refl s
  | left => exact ⟨fun _ _ h => h, fun _ => rfl, rfl⟩
  | begins t e =>
    refine ⟨?_, fun _ => rfl, rfl⟩
    intro key e' he'
    have hother : (s.pending.erase t.key).get? key = some e' := he'
    have hne : key ≠ t.key := by
      intro heq
      rw [heq, OrderedMap.get?_erase_self] at hother
      cases hother
    rwa [OrderedMap.get?_erase_ne _ hne] at hother
  | ends => exact ⟨fun _ _ h => h, fun _ => rfl, rfl⟩

variable {action : Action}

theorem step_shrinks (s : State) (haction : ∀ key replace, action ≠ .schedule key replace) :
    Shrinks s (step s action).2 (step s action).1 := by
  cases action with
  | schedule key replace => exact absurd rfl (haction key replace)
  | flushAll =>
    refine ⟨?_, fun _ => rfl, rfl⟩
    intro key e he
    cases he
  | tick d => exact ⟨fun _ _ h => h, fun _ => rfl, rfl⟩
  | fire gen =>
    show Shrinks s (fire s gen) []
    unfold fire
    cases s.timers.get? gen with
    | none => exact shrinks_refl s
    | some t =>
      dsimp only
      by_cases hdue : t.phase = .armed ∧ t.due ≤ s.now
      · rw [if_pos hdue]
        exact ⟨fun _ _ h => h, fun _ => rfl, rfl⟩
      · rw [if_neg hdue]
        exact shrinks_refl s
  | callback gen => exact callback_shrinks s gen
  | goOn call pick =>
    show Shrinks s (goOn s call pick).2 (goOn s call pick).1
    rcases goOn_cases s call pick with heq | ⟨c, c', evs, _, heq, hmoves, _⟩
    · rw [heq]
      exact shrinks_refl s
    · rw [heq]
      exact ⟨fun _ _ h => h, hmoves.quiet, rfl⟩

/-- The flush was not dropped, and only its own key may have it pending. -/
structure Latest (key : String) (flush : Nat) (past : List (Action × List Event)) (s : State) :
    Prop where
  kept : dropped past flush = 0
  brought : flush < s.nextFlush
  pending : ∀ key' e, s.pending.get? key' = some e → e.flush = flush → key' = key

variable {evs : List Event}

theorem Latest.shrinks {s' : State} (h : Latest key flush past s) (hs : Shrinks s s' evs)
    (action : Action) :
    Latest key flush (past ++ [(action, evs)]) s' := by
  refine ⟨?_, ?_, ?_⟩
  · rw [dropped_append, h.kept, hs.quiet flush]
  · rw [hs.nextFlush]
    exact h.brought
  · intro key' e he heq
    exact h.pending key' e (hs.pending key' e he) heq

variable {key' : String}

/-- An armed entry brings the next flush. -/
theorem pending_arm {timers : OrderedMap Nat Timer}
    (h : (arm s key timers).pending.get? key' = some e) :
    (key' = key ∧ e.flush = s.nextFlush) ∨ (key' ≠ key ∧ s.pending.get? key' = some e) := by
  have hset : (s.pending.set key ⟨s.seq + 1, s.nextFlush, s.seq + 1⟩).get? key' = some e := h
  rw [get?_set] at hset
  by_cases hkey : key' = key
  · rw [if_pos hkey, Option.some.injEq] at hset
    exact .inl ⟨hkey, hset ▸ rfl⟩
  · rw [if_neg hkey] at hset
    exact .inr ⟨hkey, hset⟩

variable {replace : Bool}

theorem Latest.schedule (h : Latest key flush past s) (hother : replace = true → key' ≠ key)
    (action : Action) :
    Latest key flush (past ++ [(action, (schedule s key' replace).1)])
      (schedule s key' replace).2 := by
  have hlt := h.brought
  have harm : ∀ (timers : OrderedMap Nat Timer) (key'' : String) (e : PendingEntry),
      (arm s key' timers).pending.get? key'' = some e → e.flush = flush → key'' = key := by
    intro timers key'' e he heq
    rcases pending_arm he with ⟨_, hnext⟩ | ⟨_, hold⟩
    · omega
    · exact h.pending key'' e hold heq
  unfold PendingBatcher.schedule
  dsimp only
  by_cases hstopped : s.stopped = true
  · rw [if_pos hstopped]
    refine ⟨?_, Nat.lt_succ_of_lt hlt, h.pending⟩
    rw [dropped_append, h.kept]
    rfl
  · rw [if_neg hstopped]
    cases hget : s.pending.get? key' with
    | none =>
      refine ⟨?_, Nat.lt_succ_of_lt hlt, harm s.timers⟩
      rw [dropped_append, h.kept]
      rfl
    | some e =>
      dsimp only
      cases hreplace : replace with
      | false =>
        refine ⟨?_, Nat.lt_succ_of_lt hlt, h.pending⟩
        have hne : s.nextFlush ≠ flush := by omega
        rw [dropped_append, h.kept]
        simp [hne]
      | true =>
        refine ⟨?_, Nat.lt_succ_of_lt hlt, harm (stop s.timers e.timer)⟩
        have hne : e.flush ≠ flush := fun heq => hother hreplace (h.pending key' e hget heq)
        rw [dropped_append, h.kept]
        simp [hne]

/-- A flush is the latest of its key when it is scheduled. -/
theorem Sound.latest (h : Sound past s) (hkept : replace = true ∨ s.pending.get? key = none)
    (action : Action) :
    Latest key s.nextFlush (past ++ [(action, (PendingBatcher.schedule s key replace).1)])
      (PendingBatcher.schedule s key replace).2 := by
  have hplaced := h.placed s.nextFlush
  rw [if_neg (Nat.lt_irrefl _)] at hplaced
  have hnone : dropped past s.nextFlush = 0 := by omega
  have hold : ∀ key' e, s.pending.get? key' = some e → e.flush = s.nextFlush → key' = key := by
    intro key' e he heq
    have hlt := (h.pending_spec he).1
    omega
  have harm : ∀ (timers : OrderedMap Nat Timer) (key' : String) (e : PendingEntry),
      (PendingBatcher.arm s key timers).pending.get? key' = some e → e.flush = s.nextFlush →
        key' = key := by
    intro timers key' e he heq
    rcases pending_arm he with ⟨hkey, _⟩ | ⟨_, he⟩
    · exact hkey
    · exact hold key' e he heq
  unfold PendingBatcher.schedule
  dsimp only
  by_cases hstopped : s.stopped = true
  · rw [if_pos hstopped]
    refine ⟨?_, Nat.lt_succ_self _, hold⟩
    rw [dropped_append, hnone]
    rfl
  · rw [if_neg hstopped]
    cases hget : s.pending.get? key with
    | none =>
      refine ⟨?_, Nat.lt_succ_self _, harm s.timers⟩
      rw [dropped_append, hnone]
      rfl
    | some e =>
      dsimp only
      rcases hkept with hreplace | habsurd
      · subst hreplace
        refine ⟨?_, Nat.lt_succ_self _, harm (stop s.timers e.timer)⟩
        have hne : e.flush ≠ s.nextFlush := Nat.ne_of_lt (h.pending_spec hget).1
        rw [dropped_append, hnone]
        simp [hne]
      · rw [hget] at habsurd
        cases habsurd

/-! ## What `FlushAll` waits for -/

/-- A callback that is flushing goes on, or its flush is over. -/
theorem callback_runs (s : State) (gen flush : Nat) :
    s.timers.total (runs flush) ≤ (callback s gen).2.timers.total (runs flush) +
      (callback s gen).1.count (.ended flush) := by
  have hcase := callback_cases s gen
  generalize callback s gen = after at hcase ⊢
  cases hcase with
  | idle => exact Nat.le_add_right _ _
  | left t ht hphase =>
    have hzero : runs flush t = 0 := by simp [runs, hphase]
    have hleave := total_setPhase (runs flush) .returned ht
    dsimp only
    omega
  | begins t e ht hphase =>
    have hzero : runs flush t = 0 := by simp [runs, hphase]
    have htake := total_setPhase (runs flush) (.flushing e.flush) ht
    show s.timers.total (runs flush) ≤
      (setPhase s gen t (.flushing e.flush)).timers.total (runs flush) + _
    omega
  | ends t f ht hphase =>
    have hleave := total_setPhase (runs flush) .returned ht
    show s.timers.total (runs flush) ≤
      (setPhase s gen t .returned).timers.total (runs flush) +
        [Event.ended f].count (.ended flush)
    by_cases hflush : f = flush
    · simp [runs, hphase, hflush] at hleave ⊢
      omega
    · have hzero : runs flush t = 0 := by simp [runs, hphase, hflush]
      omega

theorem schedule_runs (h : Sound past s) (key : String) (replace : Bool) (flush : Nat) :
    (schedule s key replace).2.timers.total (runs flush) =
      s.timers.total (runs flush) := by
  have hzero : ∀ t : Timer, t.phase = .armed → runs flush t = 0 := by
    intro t ht
    simp [runs, ht]
  unfold schedule
  dsimp only
  by_cases hstopped : s.stopped = true
  · rw [if_pos hstopped]
  · rw [if_neg hstopped]
    cases hget : s.pending.get? key with
    | none => exact total_arm h.timers_le key hzero
    | some e =>
      dsimp only
      cases replace with
      | false => rfl
      | true =>
        have hle : ∀ gen t, (stop s.timers e.timer).get? gen = some t → gen ≤ s.seq := by
          intro gen t ht
          obtain ⟨t₀, ht₀, _⟩ := get?_stop ht
          exact h.timers_le gen t₀ ht₀
        have htotal := total_arm hle key hzero
        rw [total_stop (runs_stopped flush)] at htotal
        exact htotal

theorem schedule_calls (s : State) (key : String) (replace : Bool) (hlt : call < s.nextCall) :
    (schedule s key replace).2.calls.get? call = s.calls.get? call := by
  unfold schedule
  dsimp only
  by_cases hstopped : s.stopped = true
  · rw [if_pos hstopped]
    exact get?_set_ne _ _ (Nat.ne_of_lt hlt)
  · rw [if_neg hstopped]
    cases s.pending.get? key with
    | none => rfl
    | some e =>
      cases replace with
      | false | true => rfl

theorem callback_calls (s : State) (gen : Nat) :
    (callback s gen).2.calls = s.calls ∧ (callback s gen).2.nextCall = s.nextCall := by
  have hcase := callback_cases s gen
  generalize callback s gen = after at hcase ⊢
  cases hcase <;> exact ⟨rfl, rfl⟩

/-- A call stays on the books. -/
theorem step_calls (h : (s.calls.get? call).isSome = true) (action : Action) :
    ((step s action).2.calls.get? call).isSome = true := by
  have hset : ∀ other c, ((s.calls.set other c).get? call).isSome = true := by
    intro other c
    by_cases heq : call = other
    · rw [heq, get?_set_self]
      rfl
    · rw [get?_set_ne _ _ heq]
      exact h
  cases action with
  | schedule key replace =>
    simp only [step, schedule]
    by_cases hstopped : s.stopped = true
    · rw [if_pos hstopped]
      exact hset _ _
    · rw [if_neg hstopped]
      cases s.pending.get? key with
      | none => exact h
      | some e => cases replace <;> exact h
  | flushAll => exact hset _ _
  | tick d => exact h
  | fire gen =>
    simp only [step, fire]
    split
    · exact h
    · split <;> exact h
  | callback gen =>
    simp only [step]
    rw [(callback_calls s gen).1]
    exact h
  | goOn other pick =>
    simp only [step]
    rcases goOn_cases s other pick with heq | ⟨_, _, _, _, heq, _⟩
    · rw [heq]
      exact h
    · rw [heq]
      exact hset _ _

/-- A flush that a call of `FlushAll` runs or waits for. -/
structure Owed (call flush : Nat) (past : List (Action × List Event)) (s : State) : Prop where
  called : call < s.nextCall
  drains : ∀ f, s.calls.get? call ≠ some (.inline f)
  due : 1 ≤ s.calls.weightAt (Call.keeps flush) call + s.calls.weightAt (Call.runs flush) call +
    s.timers.total (runs flush) + ended past flush
  settled : s.calls.get? call = some .returned → 1 ≤ ended past flush

/-- A step that leaves the call alone. -/
theorem Owed.others (h : Owed call flush past s) (s' : State) (hcalled : s.nextCall ≤ s'.nextCall)
    (hcall : s'.calls.get? call = s.calls.get? call)
    (hruns : s.timers.total (runs flush) ≤ s'.timers.total (runs flush) + evs.count (.ended flush))
    (action : Action) :
    Owed call flush (past ++ [(action, evs)]) s' := by
  refine ⟨Nat.lt_of_lt_of_le h.called hcalled, ?_, ?_, ?_⟩
  · rw [hcall]
    exact h.drains
  · have hdue := h.due
    have hweight : ∀ weight : Call → Nat,
        s'.calls.weightAt weight call = s.calls.weightAt weight call := by
      intro weight
      rw [weightAt, weightAt, hcall]
    rw [hweight, hweight, ended_append]
    omega
  · rw [hcall, ended_append]
    intro hreturned
    exact Nat.le_add_right_of_le (h.settled hreturned)

theorem Owed.goOn (h : Owed call flush past s) (hs : Sound past s) (call' pick : Nat)
    (action : Action) :
    Owed call flush (past ++ [(action, (goOn s call' pick).1)]) (goOn s call' pick).2 := by
  rcases goOn_cases s call' pick with heq | ⟨c, c', evs, hc, heq, hmoves, hunreturned, hreturns⟩
  · rw [heq]
    exact h.others s (Nat.le_refl _) rfl (Nat.le_add_right _ _) action
  · rw [heq]
    by_cases hcall : call = call'
    · subst hcall
      have hget : (setCall s call c').calls.get? call = some c' :=
        get?_set_self _ _ _
      have hdue := h.due
      have hkeeps := hmoves.keeps flush
      have hruns := hmoves.runs flush
      rw [weightAt_of_get? _ hc, weightAt_of_get? _ hc] at hdue
      have hdue' : 1 ≤ Call.keeps flush c' + Call.runs flush c' +
          s.timers.total (runs flush) + (ended past flush + evs.count (.ended flush)) := by
        omega
      refine ⟨h.called, ?_, ?_, ?_⟩
      · intro f hinline
        rw [hget, Option.some.injEq] at hinline
        exact hmoves.drains f hinline
      · rw [weightAt_of_get? _ hget, weightAt_of_get? _ hget, ended_append]
        exact hdue'
      · intro hreturned
        rw [hget, Option.some.injEq] at hreturned
        rw [ended_append]
        rcases hreturns hreturned with hidle | ⟨f, hinline⟩
        · -- No callback is flushing when the wait is over.
          have hzero : s.timers.total (runs flush) = 0 := by
            have hcounted := hs.counted
            apply total_eq_zero
            intro gen t ht
            have hle := s.timers.weightAt_le_total flushes gen
            rw [weightAt_of_get? _ ht] at hle
            have hflushes : flushes t = 0 := by omega
            cases hphase : t.phase with
            | flushing f => simp [flushes, hphase] at hflushes
            | armed | stopped | atLock | returned => simp [runs, hphase]
          rw [hreturned, hzero] at hdue'
          simpa [Call.keeps, Call.runs] using hdue'
        · exact absurd (hinline ▸ hc) (h.drains f)
    · have hget : (setCall s call' c').calls.get? call = s.calls.get? call :=
        get?_set_ne _ _ hcall
      exact h.others (setCall s call' c') (Nat.le_refl _) hget (Nat.le_add_right _ _) action

theorem Owed.step (h : Owed call flush past s) (hs : Sound past s) (action : Action) :
    Owed call flush (past ++ [(action, (step s action).1)]) (step s action).2 := by
  cases action with
  | schedule key replace =>
    apply h.others (schedule s key replace).2
    · show s.nextCall ≤ (schedule s key replace).2.nextCall
      unfold schedule
      dsimp only
      by_cases hstopped : s.stopped = true
      · rw [if_pos hstopped]
        exact Nat.le_succ _
      · rw [if_neg hstopped]
        cases s.pending.get? key with
        | none => exact Nat.le_refl _
        | some e =>
          cases replace with
          | false | true => exact Nat.le_refl _
    · exact schedule_calls s key replace h.called
    · have hruns := schedule_runs hs key replace flush
      show s.timers.total (runs flush) ≤
        (schedule s key replace).2.timers.total (runs flush) + _
      omega
  | flushAll =>
    apply h.others (flushAll s) (Nat.le_succ _)
    · exact get?_set_ne _ _ (Nat.ne_of_lt h.called)
    · show s.timers.total (runs flush) ≤
        (stopAll s.timers s.pending.values).total (runs flush) + _
      rw [total_stopAll (runs_stopped flush)]
      exact Nat.le_add_right _ _
  | tick d => exact h.others { s with now := s.now + d } (Nat.le_refl _) rfl (Nat.le_add_right _ _) _
  | fire gen =>
    show Owed call flush (past ++ [(Action.fire gen, [])]) (fire s gen)
    unfold fire
    cases ht : s.timers.get? gen with
    | none => exact h.others s (Nat.le_refl _) rfl (Nat.le_add_right _ _) _
    | some t =>
      dsimp only
      by_cases hdue : t.phase = .armed ∧ t.due ≤ s.now
      · rw [if_pos hdue]
        have htotal := total_setPhase (runs flush) .atLock ht
        have hzero : runs flush t = 0 := by simp [runs, hdue.1]
        refine h.others (setPhase s gen t .atLock) (Nat.le_refl _) rfl ?_ _
        omega
      · rw [if_neg hdue]
        exact h.others s (Nat.le_refl _) rfl (Nat.le_add_right _ _) _
  | callback gen =>
    apply h.others (callback s gen).2
    · exact (callback_calls s gen).2.ge
    · exact congrArg (·.get? call) (callback_calls s gen).1
    · exact callback_runs s gen flush
  | goOn call' pick => exact h.goOn hs call' pick _

/-! ## Coming to rest -/

def Phase.rank : Phase → Nat
  | .armed => 3
  | .atLock => 2
  | .flushing _ => 1
  | _ => 0

def Call.rank : Call → Nat
  | .inline _ => 1
  | .draining entries => 2 * entries.length + 1
  | .flushing _ entries => 2 * entries.length + 2
  | .returned => 0

def rank (s : State) : Nat := s.timers.total (fun t => t.phase.rank) + s.calls.total Call.rank

/-- Every armed timer may go off. -/
def AllDue (s : State) : Prop :=
  ∀ gen t, s.timers.get? gen = some t → t.phase = .armed → t.due ≤ s.now

variable {phase : Phase}

theorem AllDue.setPhase {gen : Nat} {t : Timer} (h : AllDue s) (hphase : phase ≠ .armed) :
    AllDue (setPhase s gen t phase) := by
  intro gen' t' ht' harmed
  rcases get?_setPhase ht' with ⟨_, rfl⟩ | ht'
  · exact absurd harmed hphase
  · exact h gen' t' ht' harmed

theorem rank_setPhase {gen : Nat} {t : Timer} (ht : s.timers.get? gen = some t)
    (hphase : phase.rank < t.phase.rank) : rank (setPhase s gen t phase) < rank s := by
  have htotal := total_setPhase (fun t => t.phase.rank) phase ht
  have hcalls : (setPhase s gen t phase).calls = s.calls := rfl
  simp only [rank, hcalls]
  simp only at htotal
  omega

/-- A goroutine that has not ended has a step to take. -/
theorem next_step (h : Sound past s) (hdue : AllDue s) (hbusy : ¬ AtRest s) :
    ∃ action : Action, action.isCall = false ∧ rank (step s action).2 < rank s ∧
      AllDue (step s action).2 := by
  by_cases htimers : ∃ gen t, s.timers.get? gen = some t ∧ 0 < t.phase.rank
  · obtain ⟨gen, t, ht, hrank⟩ := htimers
    cases hphase : t.phase with
    | armed =>
      have hfire : step s (.fire gen) = ([], setPhase s gen t .atLock) := by
        show ([], fire s gen) = _
        rw [fire, ht]
        dsimp only
        rw [if_pos ⟨hphase, hdue gen t ht hphase⟩]
      refine ⟨.fire gen, rfl, ?_, ?_⟩
      · rw [hfire]
        exact rank_setPhase ht (by rw [hphase]; decide)
      · rw [hfire]
        exact hdue.setPhase nofun
    | atLock =>
      have hcallback : step s (.callback gen) = onFire s gen t := by
        show callback s gen = _
        rw [callback, ht]
        dsimp only
        rw [hphase]
      have hleave : rank (setPhase s gen t .returned) < rank s :=
        rank_setPhase ht (by rw [hphase]; decide)
      refine ⟨.callback gen, rfl, ?_⟩
      rw [hcallback]
      unfold onFire
      cases hget : s.pending.get? t.key with
      | none => exact ⟨hleave, hdue.setPhase nofun⟩
      | some e =>
        dsimp only
        by_cases hstale : (s.stopped || e.gen != gen) = true
        · rw [if_pos hstale]
          exact ⟨hleave, hdue.setPhase nofun⟩
        · rw [if_neg hstale]
          have hbegin : rank (setPhase s gen t (.flushing e.flush)) < rank s :=
            rank_setPhase ht (by rw [hphase]; exact Nat.lt_succ_self 1)
          exact ⟨hbegin, hdue.setPhase nofun⟩
    | flushing flush =>
      have hcallback : step s (.callback gen) =
          ([.ended flush], { setPhase s gen t .returned with inflight := s.inflight - 1 }) := by
        show callback s gen = _
        rw [callback, ht]
        dsimp only
        rw [hphase]
      refine ⟨.callback gen, rfl, ?_⟩
      rw [hcallback]
      have hleave : rank (setPhase s gen t .returned) < rank s :=
        rank_setPhase ht (by rw [hphase]; exact Nat.lt_succ_self 0)
      exact ⟨hleave, hdue.setPhase nofun⟩
    | stopped | returned => simp [hphase, Phase.rank] at hrank
  · have hended : ∀ gen t, s.timers.get? gen = some t →
        t.phase = .stopped ∨ t.phase = .returned := by
      intro gen t ht
      have hzero : ¬ 0 < t.phase.rank := fun hrank => htimers ⟨gen, t, ht, hrank⟩
      cases hphase : t.phase with
      | armed | atLock | flushing flush => simp [hphase, Phase.rank] at hzero
      | stopped => exact .inl rfl
      | returned => exact .inr rfl
    have hidle : s.inflight = 0 := by
      rw [h.counted]
      apply total_eq_zero
      intro gen t ht
      rcases hended gen t ht with hphase | hphase
      · simp [flushes, hphase]
      · simp [flushes, hphase]
    have hcall : ∃ call c, s.calls.get? call = some c ∧ c ≠ .returned := by
      by_contra hnone
      apply hbusy
      refine ⟨hended, ?_⟩
      intro call c hc
      by_contra hne
      exact hnone ⟨call, c, hc, hne⟩
    obtain ⟨call, c, hc, hne⟩ := hcall
    refine ⟨.goOn call 0, rfl, ?_⟩
    have hgo : ∃ evs c', step s (.goOn call 0) = (evs, setCall s call c') ∧
        Call.rank c' < Call.rank c := by
      show ∃ evs c', goOn s call 0 = (evs, setCall s call c') ∧ Call.rank c' < Call.rank c
      unfold goOn
      rw [hc]
      cases c with
      | inline flush => exact ⟨_, _, rfl, Nat.lt_succ_self 0⟩
      | draining entries =>
        cases entries with
        | nil =>
          dsimp only
          rw [if_pos hidle]
          exact ⟨_, _, rfl, by decide⟩
        | cons entry entries =>
          refine ⟨_, _, rfl, ?_⟩
          simp only [Call.rank, List.eraseIdx_cons_zero, List.length_cons]
          omega
      | flushing flush entries => exact ⟨_, _, rfl, Nat.lt_succ_self _⟩
      | returned => exact absurd rfl hne
    obtain ⟨evs, c', hstep, hlt⟩ := hgo
    rw [hstep]
    refine ⟨?_, hdue⟩
    have htotal := total_setCall Call.rank c' hc
    have htimers' : (setCall s call c').timers = s.timers := rfl
    simp only [rank, htimers']
    omega

/-- Goroutines and the clock alone, no new call. -/
def settling : Cfg → Action → Prop := fun _ action => action.isCall = false

theorem reach_rest_of_allDue (n : Nat) (c : Cfg) (h : Sound c.past c.state)
    (hdue : AllDue c.state) (hrank : rank c.state = n) :
    ∃ c', Reach step settling c c' ∧ AtRest c'.state := by
  induction n using Nat.strong_induction_on generalizing c with
  | _ n ih =>
    by_cases hrest : AtRest c.state
    · exact ⟨c, Reach.refl c, hrest⟩
    · obtain ⟨action, haction, hlt, hdue'⟩ := next_step h hdue hrest
      have hnext := ih _ (hrank ▸ hlt) (advance step c action) (h.step action) hdue' rfl
      obtain ⟨c', hreach, hrest'⟩ := hnext
      exact ⟨c', Reach.trans
        (Reach.tail (Reach.refl c) action haction) hreach, hrest'⟩

theorem reach_rest (c : Cfg) (h : Sound c.past c.state) :
    ∃ c', Reach step settling c c' ∧ AtRest c'.state := by
  -- Wait until the last timer is due.
  have hdue : AllDue (step c.state (.tick (c.state.timers.total due))).2 := by
    intro gen t ht _
    have hle := c.state.timers.weightAt_le_total due gen
    rw [weightAt_of_get? _ (show c.state.timers.get? gen = some t from ht)] at hle
    show t.due ≤ c.state.now + c.state.timers.total due
    omega
  obtain ⟨c', hreach, hrest⟩ := reach_rest_of_allDue _
    (advance step c (.tick (c.state.timers.total due))) (h.step _) hdue rfl
  have htick : Reach step settling c
      (advance step c (.tick (c.state.timers.total due))) :=
    Reach.tail (Reach.refl c) _ (show Action.isCall _ = false from rfl)
  exact ⟨c', htick.trans hreach, hrest⟩

/-! ## The contract -/

/-- What holds of a reached configuration and of every run from it. -/
structure FlushesOnce (c : Cfg) : Prop where
  atMostOnce : ∀ flush, began c.past flush ≤ 1
  /-- `Schedule` of a pending key: the flush it replaces never runs. -/
  replaced : ∀ key e, c.state.pending.get? key = some e →
    ∀ c', Reach step anything (advance step c (.schedule key true)) c' →
      began c'.past e.flush = 0
  /-- `ScheduleIfAbsent` of a pending key: flush and timer stay, its own flush never runs. -/
  undisturbed : ∀ key e, c.state.pending.get? key = some e →
    (step c.state (.schedule key false)).2.pending = c.state.pending ∧
    (step c.state (.schedule key false)).2.timers = c.state.timers ∧
    ∀ c', Reach step anything (advance step c (.schedule key false)) c' →
      began c'.past c.state.nextFlush = 0
  /-- The latest flush of a key has run when everything is at rest. -/
  latest : ∀ key replace, (replace = true ∨ c.state.pending.get? key = none) →
    ∀ c', Reach step (fun _ action => action ≠ .schedule key true)
        (advance step c (.schedule key replace)) c' →
      AtRest c'.state → RanOnce c'.past c.state.nextFlush
  /-- Rest is always within reach. -/
  settles : ∃ c', Reach step settling c c' ∧ AtRest c'.state
  /-- What was pending or being flushed is over when `FlushAll` returns. -/
  drained : ∀ c', Reach step anything (advance step c .flushAll) c' →
    c'.state.calls.get? c.state.nextCall = some .returned →
    ∀ flush, ((∃ key e, c.state.pending.get? key = some e ∧ e.flush = flush) ∨
        ∃ gen t, c.state.timers.get? gen = some t ∧ t.phase = .flushing flush) →
      RanOnce c'.past flush
  /-- `FlushAll` is under way, and from wherever it has got to it can return. -/
  returns : (∃ entries, (advance step c .flushAll).state.calls.get? c.state.nextCall =
      some (.draining entries)) ∧
    ∀ c', Reach step anything (advance step c .flushAll) c' →
      ∃ c'', Reach step settling c' c'' ∧ c''.state.calls.get? c.state.nextCall = some .returned

theorem sound_run {allowed : Cfg → Action → Prop} {c c' : Cfg}
    (h : Reach step allowed c c') (hc : Sound c.past c.state) :
    Sound c'.past c'.state := by
  apply Reach.invariant (I := fun c => Sound c.past c.state) _ h hc
  intro d action _ hd
  exact hd.step action

/-- A flush dropped by a step never runs. -/
theorem never_begins {c c' : Cfg} (h : Reach step anything (advance step c action) c')
    (hc : Sound c.past c.state) (hdropped : 1 ≤ dropped (advance step c action).past flush) :
    began c'.past flush = 0 := by
  have hc' := sound_run h (hc.step action)
  apply hc'.not_began
  have hprefix := h.past_prefix
  have hreplaced := count_le_of_prefix hprefix (.replaced flush)
  have hdeclined := count_le_of_prefix hprefix (.declined flush)
  unfold dropped at hdropped ⊢
  omega

theorem Owed.of_flushAll (action : Action)
    (hwaits : (∃ key e, s.pending.get? key = some e ∧ e.flush = flush) ∨
      ∃ gen t, s.timers.get? gen = some t ∧ t.phase = .flushing flush) :
    Owed s.nextCall flush (past ++ [(action, [])]) (flushAll s) := by
  have hget : (flushAll s).calls.get? s.nextCall =
      some (.draining (s.pending.values.map PendingEntry.flush)) :=
    get?_set_self _ _ _
  refine ⟨Nat.lt_succ_self _, ?_, ?_, ?_⟩
  · rw [hget]
    intro f habsurd
    cases habsurd
  · rw [weightAt_of_get? _ hget, weightAt_of_get? _ hget]
    simp only [Call.keeps, Call.runs, count_values]
    show 1 ≤ s.pending.total (PendingEntry.brings flush) + 0 +
      (stopAll s.timers s.pending.values).total (runs flush) + _
    rw [total_stopAll (runs_stopped flush)]
    rcases hwaits with ⟨key, e, he, rfl⟩ | ⟨gen, t, ht, hphase⟩
    · have hle := s.pending.weightAt_le_total (PendingEntry.brings e.flush) key
      rw [weightAt_of_get? _ he, PendingEntry.brings, if_pos rfl] at hle
      omega
    · have hle := s.timers.weightAt_le_total (runs flush) gen
      rw [weightAt_of_get? _ ht, runs, if_pos hphase] at hle
      omega
  · rw [hget]
    intro habsurd
    cases habsurd

/-- In every run of the debouncer, whatever the order of calls, timers and
callbacks. -/
theorem flushes_once (window : Int) {c : Cfg}
    (h : Reach step anything (start (newPendingBatcher window)) c) :
    FlushesOnce c := by
  have hc := sound_of_reach h
  refine ⟨hc.began_le, ?_, ?_, ?_, reach_rest c hc, ?_, ⟨_, get?_set_self _ _ _⟩, ?_⟩
  · intro key e he c' hreach
    apply never_begins hreach hc
    have hstopped := hc.not_stopped he
    have hevents : (step c.state (.schedule key true)).1 = [.replaced e.flush] := by
      simp [step, schedule, hstopped, he]
    rw [advance_past, hevents, dropped_append]
    simp
  · intro key e he
    have hstopped := hc.not_stopped he
    have hstep : step c.state (.schedule key false) =
        ([.declined c.state.nextFlush],
          { c.state with nextFlush := c.state.nextFlush + 1, seq := c.state.seq + 1 }) := by
      simp [step, schedule, hstopped, he]
    rw [hstep]
    refine ⟨rfl, rfl, ?_⟩
    intro c' hreach
    apply never_begins hreach hc
    rw [advance_past, hstep, dropped_append]
    simp
  · intro key replace hkept c' hreach hrest
    have hlatest : Latest key c.state.nextFlush c'.past c'.state := by
      apply Reach.invariant
        (I := fun d => Latest key c.state.nextFlush d.past d.state) _ hreach (hc.latest hkept _)
      intro d action hallowed hd
      by_cases hschedule : ∃ key' replace', action = .schedule key' replace'
      · obtain ⟨key', replace', rfl⟩ := hschedule
        apply hd.schedule
        intro hreplace heq
        subst hreplace heq
        exact hallowed rfl
      · apply hd.shrinks
        apply step_shrinks
        intro key' replace' heq
        exact hschedule ⟨key', replace', heq⟩
    have hc' := sound_run hreach (hc.step _)
    exact hc'.at_rest hrest hlatest.brought hlatest.kept
  · intro c' hreach hreturned flush hwaits
    have howed : Sound c'.past c'.state ∧ Owed c.state.nextCall flush c'.past c'.state := by
      apply Reach.invariant (I := fun d => Sound d.past d.state ∧
        Owed c.state.nextCall flush d.past d.state) _ hreach
      · exact ⟨hc.step _, Owed.of_flushAll _ hwaits⟩
      · intro d action _ hd
        exact ⟨hd.1.step action, hd.2.step hd.1 action⟩
    exact howed.1.ranOnce (howed.2.settled hreturned)
  · intro c' hreach
    obtain ⟨c'', hsettling, hrest⟩ := reach_rest c' (sound_run hreach (hc.step _))
    have hkept : (c''.state.calls.get? c.state.nextCall).isSome = true := by
      apply Reach.invariant (I := fun d => (d.state.calls.get? c.state.nextCall).isSome = true) _
        (hreach.trans (hsettling.mono fun _ _ _ => trivial))
      · show (OrderedMap.get? (OrderedMap.set _ _ _) _).isSome = true
        rw [get?_set_self]
        rfl
      · exact fun d action _ hd => step_calls hd action
    obtain ⟨call, hcall⟩ := Option.isSome_iff_exists.mp hkept
    refine ⟨c'', hsettling, ?_⟩
    rw [hcall, hrest.2 _ _ hcall]

/-- Two messages within one window, the first timer gone off too late to be stopped. -/
def burst : List Action :=
  [.schedule "session" true, .tick 5, .fire 1, .schedule "session" true, .callback 1, .tick 5,
    .fire 2, .flushAll, .callback 2, .goOn 0 0, .goOn 0 0, .goOn 0 0]

theorem flushes_once_burst :
    FlushesOnce (exec step (start (newPendingBatcher 5)) burst) :=
  flushes_once 5 (reach_exec (allAllowed_of_forall (fun _ _ => trivial) _ _))

example : events (exec step (start (newPendingBatcher 5)) burst).past =
    [.replaced 0, .began 1, .ended 1] := by decide

end ClawMessenger.Ports.PendingBatcher
