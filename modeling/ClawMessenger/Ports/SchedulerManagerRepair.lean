import ClawMessenger.Ports.SchedulerManager

/-!
# Leases that the sweep has closed

The sweep turns a stale lease into a failure without a retry time, which is
the shape of a failure to be retried at once: `tryClaim` takes it again as long
as attempts are left, whether the job may be entered twice or not.  A plan whose
attempts are used up when its lease is closed, or that no tick tries again, stays
as the sweep has left it.
-/

namespace ClawMessenger.Ports.SchedulerManager

open Verified Verified.Machine Verified.Rows SchedulerStore List

/-- The sweep has closed the row. -/
def Closed (row : Execution) : Prop :=
  row.status = .failed ∧ row.errorCode = some "stale_timeout"

/-! ## The table under one statement -/

variable {row : Execution} {rows : Table} {action : Action} {registry : List JobSpec}

variable {statement : Statement}

/-- A row after a statement: an old one that has kept its plan and its start, or
a claimed one. -/
theorem mem_execute (h : row ∈ (execute rows statement).2) :
    (∃ old ∈ rows, row.key = old.key ∧ row.id = old.id ∧ row.startedAt = old.startedAt ∧
      (row = old ∨ old.status = .running)) ∨
    (∃ job scope planTime dbTime runnerId id leaseToken,
      statement = .claimInsert job scope planTime dbTime runnerId id leaseToken ∧
      row = freshExecution job scope planTime dbTime runnerId id leaseToken) ∨
    (∃ job scope planTime dbTime runnerId leaseToken,
      statement = .claimSteal job scope planTime dbTime runnerId leaseToken ∧
      ∃ old ∈ rows, claimable job scope planTime dbTime old = true ∧
        row = stolen job dbTime runnerId leaseToken old) := by
  have hkept : row ∈ rows → ∃ old ∈ rows, row.key = old.key ∧ row.id = old.id ∧
      row.startedAt = old.startedAt ∧ (row = old ∨ old.status = .running) :=
    fun hrow => ⟨row, hrow, rfl, rfl, rfl, .inl rfl⟩
  have hheld : ∀ {id leaseToken f}, HeldWrite f → row ∈ (updateHeld rows id leaseToken f).2 →
      ∃ old ∈ rows, row.key = old.key ∧ row.id = old.id ∧ row.startedAt = old.startedAt ∧
        (row = old ∨ old.status = .running) := by
    intro id leaseToken f hwrite hrow
    rcases mem_update.mp hrow with ⟨old, hold, hp, heq⟩ | ⟨hold, _⟩
    · have hrunning := (holds_iff.mp hp).2.2
      rw [heq]
      cases hwrite with
      | renewed | succeeded | failed => exact ⟨old, hold, rfl, rfl, rfl, .inr hrunning⟩
    · exact hkept hold
  cases statement with
  | claimInsert job scope planTime dbTime runnerId id leaseToken =>
    have hrow : row ∈ (claimInsert rows job scope planTime dbTime runnerId id leaseToken).2 := h
    unfold claimInsert at hrow
    split at hrow
    · exact .inl (hkept hrow)
    · split at hrow
      · exact .inl (hkept hrow)
      · split at hrow
        · exact .inl (hkept hrow)
        · rcases mem_append.mp hrow with hold | hmine
          · exact .inl (hkept hold)
          · exact .inr (.inl ⟨job, scope, planTime, dbTime, runnerId, id, leaseToken, rfl,
              mem_singleton.mp hmine⟩)
  | claimSteal job scope planTime dbTime runnerId leaseToken =>
    have hrow : row ∈ (claimSteal rows job scope planTime dbTime runnerId leaseToken).2 := h
    unfold claimSteal at hrow
    split at hrow
    · exact .inl (hkept hrow)
    · rcases mem_update.mp hrow with ⟨old, hold, hp, heq⟩ | ⟨hold, _⟩
      · exact .inr (.inr ⟨job, scope, planTime, dbTime, runnerId, leaseToken, rfl, old, hold,
          hp, heq⟩)
      · exact .inl (hkept hold)
  | markStaleAsFailed jobName dbTime =>
    rcases mem_update.mp h with ⟨old, hold, hp, heq⟩ | ⟨hold, _⟩
    · simp only [stale, Bool.and_eq_true, beq_iff_eq] at hp
      rw [heq]
      exact .inl ⟨old, hold, rfl, rfl, rfl, .inr hp.1.2⟩
    · exact .inl (hkept hold)
  | heartbeat id leaseToken staleTimeout now =>
    exact .inl (hheld (.renewed now staleTimeout) h)
  | finishSuccess id leaseToken dbTime durationMs res =>
    have hrow : row ∈ (finishSuccess rows id leaseToken dbTime durationMs res).2 := h
    unfold finishSuccess at hrow
    split at hrow
    · exact .inl (hkept hrow)
    · exact .inl (hheld (.succeeded dbTime durationMs _ _) hrow)
  | finishFailure id leaseToken dbTime durationMs errorCode errorMsg nextRetryAt =>
    exact .inl (hheld (.failed dbTime durationMs _ _ _) h)

/-- A statement keeps the plan keys and the ids apart. -/
theorem execute_keyed (hkeys : Keyed Execution.key rows) (hids : Keyed Execution.id rows)
    (statement : Statement) :
    Keyed Execution.key (execute rows statement).2 ∧ Keyed Execution.id (execute rows statement).2 := by
  have heffect := execute_effect rows statement
  generalize (execute rows statement).1 = reply, (execute rows statement).2 = rows' at heffect ⊢
  cases heffect with
  | nothing _ _ _ => exact ⟨hkeys, hids⟩
  | inserted _ _ _ _ _ _ _ _ _ _ hkey hid => exact ⟨hkeys.insert hkey, hids.insert hid⟩
  | stolen | swept => exact ⟨hkeys.update _ fun _ _ => rfl, hids.update _ fun _ _ => rfl⟩
  | held id leaseToken f _ hwrite =>
    have hstep : ∀ row, holds id leaseToken row = true → Step row (f row) := by
      intro row hp
      apply hwrite.step
      rw [(holds_iff.mp hp).2.2]
      simp
    exact ⟨hkeys.update _ fun row hp => (hstep row hp).key,
      hids.update _ fun row hp => (hstep row hp).id⟩

/-- A failure stays as it is, unless it is claimed. -/
theorem failed_kept (hrow : row ∈ rows) (hfailed : row.status = .failed) (statement : Statement)
    (hsteal : ∀ job scope planTime dbTime runnerId leaseToken,
      statement = .claimSteal job scope planTime dbTime runnerId leaseToken →
      claimable job scope planTime dbTime row = false) : row ∈ (execute rows statement).2 := by
  have hheld : ∀ id leaseToken f, row ∈ (updateHeld rows id leaseToken f).2 := by
    intro id leaseToken f
    refine mem_update.mpr (.inr ⟨hrow, ?_⟩)
    simp [holds, hfailed]
  cases statement with
  | claimInsert job scope planTime dbTime runnerId id leaseToken =>
    show row ∈ (claimInsert rows job scope planTime dbTime runnerId id leaseToken).2
    unfold claimInsert
    split
    · exact hrow
    · split
      · exact hrow
      · split
        · exact hrow
        · exact mem_append_left _ hrow
  | claimSteal job scope planTime dbTime runnerId leaseToken =>
    have hnot := hsteal job scope planTime dbTime runnerId leaseToken rfl
    show row ∈ (claimSteal rows job scope planTime dbTime runnerId leaseToken).2
    unfold claimSteal
    split
    · exact hrow
    · exact mem_update.mpr (.inr ⟨hrow, hnot⟩)
  | markStaleAsFailed jobName dbTime =>
    refine mem_update.mpr (.inr ⟨hrow, ?_⟩)
    simp [stale, hfailed]
  | heartbeat id leaseToken staleTimeout now => exact hheld _ _ _
  | finishSuccess id leaseToken dbTime durationMs res =>
    show row ∈ (finishSuccess rows id leaseToken dbTime durationMs res).2
    unfold finishSuccess
    split
    · exact hrow
    · exact hheld _ _ _
  | finishFailure id leaseToken dbTime durationMs errorCode errorMsg nextRetryAt =>
    exact hheld _ _ _

theorem classifyError_ne (error : HandlerError) : classifyError error ≠ "stale_timeout" := by
  cases error <;> decide

/-- What runs has no retry time, and what the sweep has closed keeps none. -/
def Unscheduled (rows : Table) : Prop :=
  ∀ row ∈ rows, row.status = .running ∨ Closed row → row.nextRetryAt = none

theorem unscheduled_update (h : Unscheduled rows) {p : Execution → Bool} {f : Execution → Execution}
    (hf : ∀ row ∈ rows, p row = true → (f row).status = .running ∨ Closed (f row) →
      (f row).nextRetryAt = none) : Unscheduled (update rows p f) := by
  intro row hrow hopen
  rcases mem_update.mp hrow with ⟨old, hold, hp, heq⟩ | ⟨hold, _⟩
  · rw [heq] at hopen ⊢
    exact hf old hold hp hopen
  · exact h row hold hopen

variable {tick : Tick}

theorem execute_unscheduled (h : Unscheduled rows) (hissues : Issues tick action statement) :
    Unscheduled (execute rows statement).2 := by
  cases statement with
  | claimInsert job scope planTime dbTime runnerId id leaseToken =>
    show Unscheduled (claimInsert rows job scope planTime dbTime runnerId id leaseToken).2
    unfold claimInsert
    split
    · exact h
    · split
      · exact h
      · split
        · exact h
        · intro row hrow hopen
          rcases mem_append.mp hrow with hold | hmine
          · exact h row hold hopen
          · rw [mem_singleton.mp hmine]
            rfl
  | claimSteal job scope planTime dbTime runnerId leaseToken =>
    show Unscheduled (claimSteal rows job scope planTime dbTime runnerId leaseToken).2
    unfold claimSteal
    split
    · exact h
    · exact unscheduled_update h fun _ _ _ _ => rfl
  | markStaleAsFailed jobName dbTime =>
    apply unscheduled_update h
    intro row hrow hp _
    simp only [stale, Bool.and_eq_true, beq_iff_eq] at hp
    exact h row hrow (.inl hp.1.2)
  | heartbeat id leaseToken staleTimeout now =>
    apply unscheduled_update h
    intro row hrow hp _
    exact h row hrow (.inl (holds_iff.mp hp).2.2)
  | finishSuccess id leaseToken dbTime durationMs res =>
    show Unscheduled (finishSuccess rows id leaseToken dbTime durationMs res).2
    unfold finishSuccess
    split
    · exact h
    · apply unscheduled_update h
      intro row _ _ hopen
      rcases hopen with hrunning | hclosed
      · cases hrunning
      · exact absurd hclosed.1 (by simp [succeeded])
  | finishFailure id leaseToken dbTime durationMs errorCode errorMsg nextRetryAt =>
    obtain ⟨error, herror⟩ := hissues
    apply unscheduled_update h
    intro row _ _ hopen
    rcases hopen with hrunning | hclosed
    · cases hrunning
    · have hcode : (if errorCode = "" then "handler_error" else errorCode) = "stale_timeout" :=
        Option.some.inj hclosed.2
      rw [herror] at hcode
      split at hcode
      · exact absurd hcode (by decide)
      · exact absurd hcode (classifyError_ne error)

/-! ## What every run keeps -/

structure Sound (registry : List JobSpec) (s : State) : Prop where
  keys : Keyed Execution.key s.rows
  ids : Keyed Execution.id s.rows
  retry : Unscheduled s.rows
  ticks : ∀ n tick, s.ticks.get? n = some tick → tick.job ∈ registry

theorem Sound.start (registry : List JobSpec) : Sound registry {} where
  keys := Keyed.nil
  ids := Keyed.nil
  retry := by
    intro row hrow
    exact absurd hrow not_mem_nil
  ticks := by
    intro n tick htick
    cases htick

/-- A tick of a table after a turn is an old one with another program counter. -/
theorem Turn.tick_of_get? {s s' : State} {n : Nat} (h : Turn s n tick action s') {m : Nat}
    {tick' : Tick} (hm : s'.ticks.get? m = some tick') :
    s.ticks.get? m = some tick' ∨
      (tick'.job = tick.job ∧ tick'.now = tick.now ∧
        (tick'.pc.pending ⊆ tick.pc.pending ∨ ∃ scope,
          plansForTick tick.job scope tick.now (latestPlan s.rows tick.job.name scope) =
            .ok tick'.pc.pending)) := by
  rcases h.ticks with hsame | herased | ⟨pc, hset, hpending⟩
  · rw [hsame] at hm
    exact .inl hm
  · rw [herased] at hm
    by_cases heq : m = n
    · rw [heq, OrderedMap.get?_erase_self] at hm
      cases hm
    · rw [OrderedMap.get?_erase_ne _ heq] at hm
      exact .inl hm
  · rw [hset, OrderedMap.get?_set] at hm
    split at hm
    · rw [← Option.some.inj hm]
      exact .inr ⟨rfl, rfl, hpending⟩
    · exact .inl hm

variable {c : Run}

theorem Sound.step (h : Sound registry c.state) (hallowed : allowed registry c action) :
    Sound registry (SchedulerManager.step c.state action).2 := by
  rcases step_cases c.state action with hsame | ⟨now, _, hclock⟩ |
    ⟨n, job, now, runnerId, haction, hbegun⟩ | ⟨n, tick, _, hn, hturn⟩
  · rw [hsame]
    exact h
  · rw [hclock]
    exact ⟨h.keys, h.ids, h.retry, h.ticks⟩
  · rw [haction] at hallowed
    rw [hbegun]
    refine ⟨h.keys, h.ids, h.retry, ?_⟩
    intro m tick hm
    rw [OrderedMap.get?_set] at hm
    split at hm
    · rw [← Option.some.inj hm]
      exact hallowed.2.1
    · exact h.ticks m tick hm
  · have hticks : ∀ m tick', (SchedulerManager.step c.state action).2.ticks.get? m = some tick' →
        tick'.job ∈ registry := by
      intro m tick' hm
      rcases hturn.tick_of_get? hm with hold | ⟨hjob, _, _⟩
      · exact h.ticks m tick' hold
      · rw [hjob]
        exact h.ticks n tick hn
    rcases hturn.rows with hrows | ⟨statement, hissues, hrows⟩
    · refine ⟨?_, ?_, ?_, hticks⟩
      · rw [hrows]
        exact h.keys
      · rw [hrows]
        exact h.ids
      · rw [hrows]
        exact h.retry
    · obtain ⟨hkeys, hids⟩ := execute_keyed h.keys h.ids statement
      refine ⟨?_, ?_, ?_, hticks⟩
      · rw [hrows]
        exact hkeys
      · rw [hrows]
        exact hids
      · rw [hrows]
        exact execute_unscheduled h.retry hissues

theorem Sound.reach
    (h : Machine.Reach SchedulerManager.step (allowed registry) (Machine.start {}) c) :
    Sound registry c.state :=
  Machine.Reach.invariant (I := fun d : Run => Sound registry d.state)
    (fun _ _ hallowed hd => hd.step hallowed) h (Sound.start registry)

/-! ## Closed plans -/

/-- A plan of a job that must not be entered twice, closed by the sweep. -/
structure NeedsRepair (registry : List JobSpec) (rows : Table) (row : Execution) : Prop where
  mem : row ∈ rows
  closed : Closed row
  job : ∃ job ∈ registry, job.name = row.jobName ∧ job.allowStaleReentry = false

/-- No tick tries to claim a plan that needs repair and has attempts left. -/
def repaired (registry : List JobSpec) (c : Run) : Action → Prop
  | .steal n _ _ => ∀ tick scopes scope planTime plans row,
      c.state.ticks.get? n = some tick → tick.pc = .stealing scopes scope planTime plans →
      NeedsRepair registry c.state.rows row → row.key = planKey tick.job scope planTime →
      row.maxAttempts ≤ row.attempt
  | _ => True

variable {scope : Scope}

/-- The update of `tryClaim` takes a closed row if and only if attempts are left. -/
theorem claimable_of_closed {job : JobSpec} {planTime dbTime : Time} (hclosed : Closed row)
    (hretry : row.nextRetryAt = none) (hkey : row.key = planKey job scope planTime) :
    claimable job scope planTime dbTime row = true ↔ row.attempt < row.maxAttempts := by
  simp [claimable, hclosed.1, hretry, hkey]

theorem NeedsRepair.step (h : NeedsRepair registry c.state.rows row)
    (hrepaired : repaired registry c action) :
    NeedsRepair registry (step c.state action).2.rows row := by
  refine ⟨?_, h.closed, h.job⟩
  rcases step_cases c.state action with hsame | ⟨now, _, hclock⟩ | ⟨n, job, now, runnerId, _, hbegun⟩ |
    ⟨n, tick, htick, hn, hturn⟩
  · rw [hsame]
    exact h.mem
  · rw [hclock]
    exact h.mem
  · rw [hbegun]
    exact h.mem
  · rcases hturn.rows with hrows | ⟨statement, hissues, hrows⟩
    · rw [hrows]
      exact h.mem
    · rw [hrows]
      apply failed_kept h.mem h.closed.1
      intro job scope planTime dbTime runnerId leaseToken hstatement
      rw [hstatement] at hissues
      obtain ⟨hjob, _, ⟨scopes, plans, hpc⟩, m, haction⟩ := hissues
      by_contra hclaimable
      have hclaimable' : claimable job scope planTime dbTime row = true := by simpa using hclaimable
      obtain ⟨hkey, hattempt, _⟩ := status_of_claimable hclaimable'
      rw [haction] at htick hrepaired
      have hm : m = n := Option.some.inj htick
      rw [hjob] at hkey
      have hused := hrepaired tick scopes scope planTime plans row (by rw [hm, hn]) hpc h hkey
      omega

/-- A tick that tries to claim a closed plan takes it if and only if attempts are
left. -/
theorem steal_closed {s : State} (hsound : Sound registry s) (hrow : row ∈ s.rows)
    (hclosed : Closed row) {n : Nat} {scopes : List Scope} {planTime : Time} {plans : List Time}
    (hn : s.ticks.get? n = some tick) (hpc : tick.pc = .stealing scopes scope planTime plans)
    (hkey : row.key = planKey tick.job scope planTime) (leaseToken : Uuid) :
    (∃ row' ∈ (step s (.steal n leaseToken true)).2.rows, row'.key = row.key ∧
      row'.status = .running ∧ row'.attempt = row.attempt + 1) ↔
    row.attempt < row.maxAttempts := by
  have hclaimable : claimable tick.job scope planTime tick.now row = true ↔
      row.attempt < row.maxAttempts :=
    claimable_of_closed hclosed (hsound.retry row hrow (.inr hclosed)) hkey
  have hrows : (step s (.steal n leaseToken true)).2.rows =
      (claimSteal s.rows tick.job scope planTime tick.now tick.runnerId leaseToken).2 := by
    unfold step
    simp only [Action.tick?, hn, Option.elim_some, State.stepTick, hpc, State.steal]
    split
    · split
      · rfl
      · rfl
    · rfl
  rw [hrows]
  constructor
  · rintro ⟨row', hrow', hkey', hrunning, _⟩
    by_contra hused
    have hnot : claimable tick.job scope planTime tick.now row = false := by
      by_contra hother
      exact hused (hclaimable.mp (by simpa using hother))
    have hkept : row ∈ (execute s.rows
        (.claimSteal tick.job scope planTime tick.now tick.runnerId leaseToken)).2 := by
      apply failed_kept hrow hclosed.1
      intro job' scope' planTime' dbTime' runnerId' leaseToken' heq
      injection heq with hjob hscope hplan hdb
      rw [← hjob, ← hscope, ← hplan, ← hdb]
      exact hnot
    have hkeyed := (execute_keyed hsound.keys hsound.ids
      (.claimSteal tick.job scope planTime tick.now tick.runnerId leaseToken)).1
    have hsame := hkeyed.eq_of_key hrow' hkept hkey'
    rw [hsame, hclosed.1] at hrunning
    cases hrunning
  · intro hleft
    have hp := hclaimable.mpr hleft
    have hsome : (s.rows.find? (claimable tick.job scope planTime tick.now)).isSome = true := by
      rw [find?_isSome]
      exact ⟨row, hrow, hp⟩
    obtain ⟨found, hfound⟩ := Option.isSome_iff_exists.mp hsome
    unfold claimSteal
    rw [hfound]
    exact ⟨stolen tick.job tick.now tick.runnerId leaseToken row,
      mem_update.mpr (.inl ⟨row, hrow, hp, rfl⟩), rfl, rfl, rfl⟩

/-- In a run in which no tick tries to claim a closed plan with attempts left, a
plan that needs repair stays as the sweep has left it.  A tick that does try takes
it again. -/
theorem closed_until_repaired {registry : List JobSpec} {c c' : Run}
    (hc : Reach SchedulerManager.step (allowed registry) (start {}) c)
    (hc' : Reach SchedulerManager.step
      (fun d action => allowed registry d action ∧ repaired registry d action) c c')
    {row : Execution} (hrow : NeedsRepair registry c.state.rows row) :
    NeedsRepair registry c'.state.rows row ∧
    ∀ n tick scopes scope planTime plans leaseToken, c'.state.ticks.get? n = some tick →
      tick.pc = .stealing scopes scope planTime plans → row.key = planKey tick.job scope planTime →
      ((∃ row' ∈ (SchedulerManager.step c'.state (.steal n leaseToken true)).2.rows,
          row'.key = row.key ∧ row'.status = .running ∧ row'.attempt = row.attempt + 1) ↔
        row.attempt < row.maxAttempts) := by
  have hkept : NeedsRepair registry c'.state.rows row :=
    Reach.invariant (I := fun d : Run => NeedsRepair registry d.state.rows row)
      (fun _ _ hallowed hd => hd.step hallowed.2) hc' hrow
  have hsound : Sound registry c'.state :=
    Sound.reach (hc.trans (hc'.mono fun _ _ hallowed => hallowed.1))
  refine ⟨hkept, ?_⟩
  intro n tick scopes scope planTime plans leaseToken hn hpc hkey
  exact steal_closed hsound hkept.mem hkept.closed hn hpc hkey leaseToken

/-! ## A closed plan that is claimed again -/

/-- A job that must not be entered twice. -/
def exclusiveJob (maxAttempts : Int) : JobSpec :=
  { nightlyJob with allowStaleReentry := false, maxAttempts := maxAttempts }

/-- A runner dies with its lease, and the tick of another one closes it. -/
def leaseClosed (job : JobSpec) : List Action :=
  [.begin 1 job 0 "first", .scopes 1 (some [scopeGlobal]), .sweep 1 true, .plan 1 true,
    .insert 1 1 11 true, .crash 1, .setClock (200 * second), .begin 2 job (200 * second) "second",
    .scopes 2 (some [scopeGlobal]), .sweep 2 true]

/-- The same tick comes to the plan. -/
def planTried : List Action := [.plan 2 true, .insert 2 2 12 true, .steal 2 13 true]

/-- What the sweep has left. -/
def closedExecution (job : JobSpec) : Execution :=
  staleFailed (200 * second) (freshExecution job scopeGlobal 0 0 "first" 1 11)

variable {maxAttempts : Int}

theorem leaseClosed_allowed (h : maxAttempts = 1 ∨ maxAttempts = 3) :
    AllAllowed step (allowed [exclusiveJob maxAttempts])
      (start {}) (leaseClosed (exclusiveJob maxAttempts)) := by
  refine ⟨⟨rfl, mem_singleton_self _, ?_, ?_⟩, trivial, trivial, trivial, trivial, trivial,
    ⟨?_, ?_⟩, ⟨?_, mem_singleton_self _, ?_, ?_⟩, trivial, trivial, trivial⟩
  all_goals
    rcases h with rfl | rfl
    · decide +kernel
    · decide +kernel

theorem leaseClosed_needsRepair (h : maxAttempts = 1 ∨ maxAttempts = 3) :
    NeedsRepair [exclusiveJob maxAttempts]
      (exec step (start {})
        (leaseClosed (exclusiveJob maxAttempts))).state.rows
      (closedExecution (exclusiveJob maxAttempts)) where
  mem := by
    rcases h with rfl | rfl
    · decide +kernel
    · decide +kernel
  closed := ⟨rfl, rfl⟩
  job := ⟨exclusiveJob maxAttempts, mem_singleton_self _, rfl, rfl⟩

/-- With one attempt the plan is tried again and left alone. -/
theorem closed_until_repaired_oneAttempt :
    closedExecution (exclusiveJob 1) ∈
      (exec step (exec step (start {})
        (leaseClosed (exclusiveJob 1))) planTried).state.rows := by
  have hc := reach_exec (leaseClosed_allowed (.inl rfl))
  have htried : AllAllowed step
      (fun d action => allowed [exclusiveJob 1] d action ∧ repaired [exclusiveJob 1] d action)
      (exec step (start {}) (leaseClosed (exclusiveJob 1)))
      planTried := by
    refine ⟨⟨trivial, trivial⟩, ⟨trivial, trivial⟩, ⟨trivial, ?_⟩, trivial⟩
    intro tick scopes scope planTime plans row _ _ hrow _
    have hone : ∀ other ∈ (exec step (start {})
        (leaseClosed (exclusiveJob 1) ++ [Action.plan 2 true, .insert 2 2 12 true])).state.rows,
        other.maxAttempts ≤ other.attempt := by decide +kernel
    exact hone row hrow.mem
  exact (closed_until_repaired hc (reach_exec htried)
    (leaseClosed_needsRepair (.inl rfl))).1.mem

/-- With three it is claimed again. -/
theorem closed_claimed_again :
    ¬∀ (registry : List JobSpec) (c c' : Run) (row : Execution),
      (∀ job ∈ registry, validate job = true) →
      Reach step (allowed registry) (start {}) c →
      Reach step (allowed registry) c c' →
      NeedsRepair registry c.state.rows row → row ∈ c'.state.rows := by
  intro h
  have hc := reach_exec (leaseClosed_allowed (.inr rfl))
  have htried : AllAllowed step (allowed [exclusiveJob 3])
      (exec step (start {}) (leaseClosed (exclusiveJob 3)))
      planTried := ⟨trivial, trivial, trivial, trivial⟩
  have hvalid : ∀ job ∈ [exclusiveJob 3], validate job = true := by
    intro job hjob
    rw [mem_singleton.mp hjob]
    decide +kernel
  have hkept := h _ _ _ _ hvalid hc (reach_exec htried) (leaseClosed_needsRepair (.inr rfl))
  have hgone : closedExecution (exclusiveJob 3) ∉
      (exec step (exec step (start {})
        (leaseClosed (exclusiveJob 3))) planTried).state.rows := by decide +kernel
  exact hgone hkept

end ClawMessenger.Ports.SchedulerManager
