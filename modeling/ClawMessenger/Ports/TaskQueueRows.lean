import ClawMessenger.Ports.TaskQueueCapacity

/-!
# The rows of the task queue

What the columns of a row say of each other (`Task.WellFormed`) holds of every row that a run
ever has: a task that waits carries nothing of an earlier claim, and one that ran has all its
dates.  `statement_wellFormed` goes through the statements once; the commit of a claim needs
the row that it has locked.
-/

namespace ClawMessenger.Ports.TaskQueue

open Verified Verified.Machine
open Statement (change)

variable {db : Db} {s : State} {t t' : Task}

/-! ## One row -/

structure Task.WellFormed (t : Task) : Prop where
  runtime : t.runtimeId.isSome = true
  completed : t.completedAt.isSome = t.status.over
  started : t.startedAt.isSome = true → t.status.begun = true
  ran : t.status = .running ∨ t.status = .completed → t.startedAt.isSome = true
  dispatched : t.status.active = true ∨ t.status = .completed → t.dispatchedAt.isSome = true
  waiting : t.status = .queued ∨ t.status = .deferred → t.dispatchedAt = none ∧ t.prepareLeaseExpiresAt = none
  unleased : t.status = .running → t.prepareLeaseExpiresAt = none
  reason : t.status = .failed → t.failureReason.isSome = true

/-- A row that waits. -/
theorem Task.WellFormed.waits (hruntime : t.runtimeId.isSome = true ∨ t.completedAt.isSome = true)
    (hstatus : t.status = .queued ∨ t.status = .deferred) (hcompleted : t.completedAt = none)
    (hstarted : t.startedAt = none) (hclaim : t.dispatchedAt = none ∧ t.prepareLeaseExpiresAt = none) :
    t.WellFormed := by
  rw [hcompleted] at hruntime
  rcases hstatus with hstatus | hstatus <;> constructor <;>
    simp_all [Status.over, Status.unfinished, Status.active]

/-- A row that failed or was cancelled. -/
theorem Task.WellFormed.ended (h : t.WellFormed) (hruntime : t'.runtimeId = t.runtimeId)
    (hcompleted : t'.completedAt.isSome = true)
    (hstatus : t'.status = .cancelled ∨ t'.status = .failed ∧ t'.failureReason.isSome = true) : t'.WellFormed := by
  have hold := h.runtime
  rcases hstatus with hstatus | hstatus <;> constructor <;>
    simp_all [Status.over, Status.begun, Status.unfinished, Status.active]

/-! ## What a statement does to a row -/

theorem statement_wellFormed {now : Nat} {st : Statement} (h : t.WellFormed)
    (hselects : (st.change now).selects db t = true) : ((st.change now).set t).WellFormed := by
  obtain ⟨hruntime, hcompleted, hstarted, hran, hdispatched, hwaiting, hunleased, hreason⟩ := id h
  cases st with
  | reclaimStaleDispatchedTasksForRuntimes =>
    have heligible := mem_reclaimed (List.contains_iff_mem.mp hselects)
    simp only [Db.reclaimable, Bool.and_eq_true, decide_eq_true_iff] at heligible
    constructor <;> simp_all [change]
  | promoteDeferredChannelIssueTask | promoteDueDeferredTasksForRuntimes | promoteChannelChatTasksIfMediaReady
  | requeueAgentTaskAfterClaimFailure | markAgentTaskWaitingLocalDirectory | completeAgentTask =>
    simp only [change, Db.dueDeferred, Bool.and_eq_true, decide_eq_true_iff] at hselects
    constructor <;> simp_all [change, Status.over, Status.begun, Status.unfinished, Status.active]
  | extendAgentTaskPrepareLease | startAgentTask =>
    simp only [change, Bool.and_eq_true, Bool.or_eq_true, decide_eq_true_iff] at hselects
    have hstatus : t.status = .dispatched ∨ t.status = .waitingLocalDirectory := by tauto
    cases hstatus <;> constructor <;>
      simp_all [change, Status.over, Status.begun, Status.unfinished, Status.active]
  -- failures and cancellations
  | _ => first | exact h.ended rfl rfl (.inl rfl) | exact h.ended rfl rfl (.inr ⟨rfl, rfl⟩)

/-! ## New rows -/

theorem row_wellFormed {now : Nat} {e : Enqueue} (h : e.row db now = some t)
    (hruntime : t.runtimeId.isSome = true ∨ t.completedAt.isSome = true) : t.WellFormed := by
  cases e with
  | createRetryTask newTaskId parentId fireAt =>
    obtain ⟨p, -, rfl⟩ := Option.map_eq_some_iff.mp h
    apply Task.WellFormed.waits hruntime _ rfl rfl ⟨rfl, rfl⟩
    cases fireAt with
    | none => exact .inl rfl
    | some time => exact .inr rfl
  | createManualQuickCreateRetryTask newTaskId sourceTaskId =>
    obtain ⟨p, -, rfl⟩ := Option.map_eq_some_iff.mp h
    exact .waits hruntime (.inl rfl) rfl rfl ⟨rfl, rfl⟩
  | createChatTask id agentId runtimeId priority chatSessionId fireAt sealedUntil =>
    simp only [Enqueue.row, deferChatTaskForSealedPendingMedia, Option.some.injEq] at h
    split at h
    · cases h
      cases fireAt <;> exact .waits hruntime (by simp) rfl rfl ⟨rfl, rfl⟩
    · split at h
      · cases h
        exact .waits hruntime (.inr rfl) rfl rfl ⟨rfl, rfl⟩
      · cases h
        cases fireAt <;> exact .waits hruntime (by simp) rfl rfl ⟨rfl, rfl⟩
  | createDeferredChannelIssueTask | createDeferredAgentTask =>
    cases h
    exact .waits hruntime (.inr rfl) rfl rfl ⟨rfl, rfl⟩
  | _ =>
    cases h
    exact .waits hruntime (.inl rfl) rfl rfl ⟨rfl, rfl⟩

/-! ## All rows -/

def Db.WellFormed (db : Db) : Prop := ∀ t ∈ db.tasks, t.WellFormed

theorem run_wellFormed (h : db.WellFormed) (now : Nat) (st : Statement) : (db.run (st.change now)).1.WellFormed := by
  rcases run_cases db (st.change now) with hrun | hrun
  · rw [hrun]
    exact h
  · rw [hrun]
    intro t ht
    rcases Rows.mem_update.mp ht with ⟨old, hold, hselects, rfl⟩ | ⟨hold, -⟩
    · exact statement_wellFormed (h old hold) hselects
    · exact h t hold

theorem enqueue_wellFormed (h : db.WellFormed) (now : Nat) (fence : Bool) (e : Enqueue) :
    (db.enqueue now fence e).WellFormed := by
  unfold Db.enqueue
  cases hrow : e.row db now with
  | none => exact h
  | some t =>
    simp only [Db.insert]
    split
    · rename_i hguard
      simp only [Bool.and_eq_true, Bool.or_eq_true] at hguard
      intro t' ht'
      cases List.mem_append.mp ht' with
      | inl hold => exact h t' hold
      | inr hnew =>
        rw [List.mem_singleton.mp hnew]
        exact row_wellFormed hrow hguard.1.2
    · exact h

/-- The row that a claim has locked is queued when it is dispatched. -/
theorem commit_wellFormed {c : Claim} {n : Nat} (h : s.db.WellFormed) (hsound : Sound s) (hc : s.claims n = some c) :
    (s.commit n c).2.db.WellFormed := by
  rcases commit_cases s n c with hcommit | ⟨t, prepareLeaseSecs, hphase, hcommit⟩
  · rw [hcommit]
    exact h
  · rw [hcommit]
    obtain ⟨ht, hqueued, -⟩ := (hsound.holds n c hc).row t prepareLeaseSecs hphase
    intro u hu
    rcases mem_dispatched hsound.keyed ht hu with rfl | ⟨hu, -⟩
    · obtain ⟨hruntime, hcompleted, hstarted, hran, hdispatched, hwaiting, hunleased, hreason⟩ := h t ht
      constructor <;> simp_all [Task.dispatch, Status.over, Status.begun, Status.unfinished, Status.active]
    · exact h u hu

theorem step_wellFormed (h : s.db.WellFormed) (hsound : Sound s) (event : Event) : (s.step event).2.db.WellFormed := by
  cases event with
  | enqueue now fence e => exact enqueue_wellFormed h now fence e
  | run now st => exact run_wellFormed h now st
  | deleteUnstartedQuickCreateRetryTask taskId => exact fun t ht => h t (List.mem_of_mem_filter ht)
  | commitClaim n =>
    simp only [State.step]
    cases hc : s.claims n with
    | none => exact h
    | some c => exact commit_wellFormed h hsound hc
  | claim | countRunningTasks | claimAgentTask =>
    simp only [State.step, State.count, State.take]
    repeat' split
    all_goals exact h
  | rollbackClaim n | saveAgent agentId agent | saveRuntime runtimeId runtime => exact h

/-- Over every run the columns of each row agree. -/
theorem rows_wellFormed {c : Config State Event (List Task)} (h : Reach State.step Allowed (start State.start) c) :
    ∀ t ∈ c.state.db.tasks, t.WellFormed := by
  apply (h.invariant (I := fun c => Sound c.state ∧ c.state.db.WellFormed) _ ⟨.start, fun _ ht => absurd ht List.not_mem_nil⟩).2
  intro d event hallowed hd
  exact ⟨hd.1.step hallowed, step_wellFormed hd.2 hd.1 event⟩

/-- A task is claimed and started and fails, and another one is cancelled while it waits. -/
theorem rows_wellFormed_failed :
    let tasks := (exec State.step (start State.start) (startedRun ++ [.run 30 (.failAgentTask 7 (some "timeout")),
      .enqueue 40 true (.createAgentTask 8 1 (some 3) 5 0 none []), .run 50 (.cancelAgentTask 8)])).state.db.tasks
    tasks.map Task.status = [.failed, .cancelled] ∧ ∀ t ∈ tasks, t.WellFormed := by
  have hidle : ∀ {s : State}, (∀ n, s.claims n = none) → ∀ t, ¬ s.lockedTask t := by
    rintro s hnone t ⟨n, c, prepareLeaseSecs, hc, -⟩
    rw [hnone n] at hc
    cases hc
  have hclaims : ∀ n, (exec State.step (start State.start) startedRun).state.claims n = none := by
    intro n
    change Function.update (Function.update (Function.update (Function.update (fun _ => none) 0 _) 0 _)
      0 _) 0 none n = none
    by_cases hn : n = 0 <;> simp [hn]
  refine ⟨by decide +kernel, rows_wellFormed ?_⟩
  exact (((reach_exec startedRun_allowed).tail (.run 30 (.failAgentTask 7 (some "timeout")))
    fun t ht => absurd ht (hidle hclaims t)).tail (.enqueue 40 true (.createAgentTask 8 1 (some 3) 5 0 none []))
    trivial).tail (.run 50 (.cancelAgentTask 8)) fun t ht => absurd ht (hidle hclaims t)

end ClawMessenger.Ports.TaskQueue
