import ClawMessenger.Ports.TaskQueue

/-!
# The life of a task

`mayBecome` is the life of a task as it is meant: every arrow between states
except the claim.  Each statement stays on it and leaves alone what a task is
about (`statement_moves`).  So apart from a claim no step makes a task active
that was not, and none brings back a task that is over (`Calm`, `Onward`).
-/

namespace ClawMessenger.Ports.TaskQueue

open Verified List
open Statement (change)

variable {db db' db'' : Db} {t t' : Task}

/-! ## The life cycle -/

/-- `completed`, `failed` and `cancelled` -/
def Status.over (status : Status) : Bool := !status.unfinished

/-- A task that was started, or that will never be. -/
def Status.begun (status : Status) : Bool := status = .running || status.over

/-- The arrows other than the claim. -/
def mayBecome : Status → Status → Bool
  | .deferred, .queued => true
  | .dispatched, .queued => true
  | .dispatched, .dispatched => true
  | .dispatched, .waitingLocalDirectory => true
  | .waitingLocalDirectory, .waitingLocalDirectory => true
  | .dispatched, .running => true
  | .waitingLocalDirectory, .running => true
  | .running, .completed => true
  | old, .failed => old.unfinished
  | old, .cancelled => old.unfinished
  | _, _ => false

variable {old new : Status}

theorem mayBecome_unfinished (h : mayBecome old new = true) : old.unfinished = true := by
  cases old <;> cases new <;> first | rfl | cases h

theorem mayBecome_failed (h : old.unfinished = true) : mayBecome old .failed = true := by
  cases old <;> first | rfl | cases h

theorem mayBecome_cancelled (h : old.unfinished = true) : mayBecome old .cancelled = true := by
  cases old <;> first | rfl | cases h

theorem unfinished_of_contains (h : unfinishedStates.contains old = true) : old.unfinished = true := by
  cases old <;> first | rfl | cases h

theorem mayBecome_active (h : mayBecome old new = true) (hnew : new.active = true) :
    old.active = true := by
  cases old <;> cases new <;>
    first | rfl | exact absurd h (by decide) | cases hnew

theorem mayBecome_begun (h : mayBecome old new = true) (hold : old.begun = true) :
    new.begun = true := by
  cases old <;> cases new <;>
    first | rfl | exact absurd h (by decide) | cases hold

/-- What a task is about, which no statement changes. -/
structure SameTask (t t' : Task) : Prop where
  id : t'.id = t.id
  agentId : t'.agentId = t.agentId
  issueId : t'.issueId = t.issueId
  chatSessionId : t'.chatSessionId = t.chatSessionId
  autopilotRunId : t'.autopilotRunId = t.autopilotRunId
  runtimeId : t'.runtimeId = t.runtimeId

theorem SameTask.refl (t : Task) : SameTask t t := ⟨rfl, rfl, rfl, rfl, rfl, rfl⟩

theorem conflicts_congr {u u' : Task} (h : SameTask t t') (hu : SameTask u u') :
    t'.conflicts u' = t.conflicts u := by
  unfold Task.conflicts Task.quickCreate
  rw [h.issueId, h.chatSessionId, h.autopilotRunId, hu.issueId, hu.chatSessionId, hu.autopilotRunId]

theorem conflicts_symm (t t' : Task) : t.conflicts t' = t'.conflicts t := by
  have hequal : ∀ a b, equal a b = equal b a := by
    intro a b
    unfold equal
    by_cases hab : a = b
    · rw [hab]
    · have hba : ¬ b = a := fun heq => hab heq.symm
      rw [decide_eq_false hab, decide_eq_false hba, Bool.and_false, Bool.and_false]
  unfold Task.conflicts
  rw [hequal t.issueId, hequal t.chatSessionId, Bool.and_comm]

/-! ## What a statement does to a row -/

variable {now : Nat} {states : List Status} {selects : Db → Task → Bool}

theorem cancel_moves (hstates : ∀ status ∈ states, status.unfinished = true)
    (h : (cancel now states selects).selects db t = true) :
    mayBecome t.status ((cancel now states selects).set t).status = true := by
  simp only [cancel, Bool.and_eq_true] at h
  exact mayBecome_cancelled (hstates t.status (contains_iff_mem.mp h.1))

theorem fail_moves {reason : String} (hstates : ∀ status ∈ states, status.unfinished = true)
    (h : (fail now reason states selects).selects db t = true) :
    mayBecome t.status ((fail now reason states selects).set t).status = true := by
  simp only [fail, Bool.and_eq_true] at h
  exact mayBecome_failed (hstates t.status (contains_iff_mem.mp h.1))

theorem mem_reclaimed {eligible : Task → Bool} {locked : List Nat} {n : Nat}
    (h : t ∈ db.reclaimed eligible locked n) : eligible t = true := by
  have hsorted := mem_of_mem_take h
  rw [mem_insertionSort, mem_filter, Bool.and_eq_true] at hsorted
  exact hsorted.2.1

theorem statement_same (st : Statement) : SameTask t ((st.change now).set t) := by
  cases st <;> exact ⟨rfl, rfl, rfl, rfl, rfl, rfl⟩

/-- Every statement stays on the life cycle. -/
theorem statement_moves {st : Statement} (h : (st.change now).selects db t = true) :
    mayBecome t.status ((st.change now).set t).status = true := by
  cases st with
  | promoteDeferredChannelIssueTask id =>
    simp only [change, Bool.and_eq_true, decide_eq_true_iff] at h
    rw [h.2]
    rfl
  | promoteDueDeferredTasksForRuntimes runtimeIds runtimeStaleSecs =>
    simp only [change, Db.dueDeferred, Bool.and_eq_true, decide_eq_true_iff] at h
    rw [h.1.1.1.1.2]
    rfl
  | promoteChannelChatTasksIfMediaReady chatSessionId mediaPending =>
    simp only [change, Bool.and_eq_true, decide_eq_true_iff] at h
    rw [h.1.1.1.1.2]
    rfl
  | requeueAgentTaskAfterClaimFailure taskId runtimeId dispatchedAt =>
    simp only [change, Bool.and_eq_true, decide_eq_true_iff] at h
    rw [h.1.1.2]
    rfl
  | reclaimStaleDispatchedTasksForRuntimes runtimeIds claimRecoverySecs prepareLeaseSecs
      runtimeStaleSecs maxTasks locked =>
      have heligible := mem_reclaimed (contains_iff_mem.mp h)
      simp only [Db.reclaimable, Bool.and_eq_true, decide_eq_true_iff] at heligible
      show mayBecome t.status t.status = true
      rw [heligible.1.1.1.1.1.2]
      rfl
  | extendAgentTaskPrepareLease id runtimeId leaseSecs =>
    simp only [change, Bool.and_eq_true, Bool.or_eq_true, decide_eq_true_iff] at h
    show mayBecome t.status t.status = true
    rcases h.1.2 with hstatus | hstatus <;> rw [hstatus] <;> rfl
  | startAgentTask id =>
    simp only [change, Bool.and_eq_true, Bool.or_eq_true, decide_eq_true_iff] at h
    rcases h.2 with hstatus | hstatus <;> rw [hstatus] <;> rfl
  | markAgentTaskWaitingLocalDirectory id prepareLeaseSecs =>
    simp only [change, Bool.and_eq_true, decide_eq_true_iff] at h
    rw [h.2]
    rfl
  | completeAgentTask id =>
    simp only [change, Bool.and_eq_true, decide_eq_true_iff] at h
    rw [h.2]
    rfl
  | failTasksForOfflineRuntimes reconnectGraceSecs maxPerTick locked =>
    simp only [change, Bool.and_eq_true] at h
    have hactive := h.2
    cases hstatus : t.status <;> rw [hstatus] at hactive <;> first | rfl | cases hactive
  | cancelAgentTaskWithReason id failureReason =>
    simp only [change, Bool.and_eq_true] at h
    exact mayBecome_cancelled (unfinished_of_contains h.2)
  | cancelAgentTasksByRuntimeOrAgent runtimeIds agentIds =>
    simp only [change, Bool.and_eq_true] at h
    exact mayBecome_cancelled (unfinished_of_contains h.2)
  | failAgentTask id failureReason | recoverOrphanedTasksForRuntime runtimeId => exact fail_moves (by decide) h
  | failStaleTasks dispatchTimeoutSecs runtimeStaleSecs runtimeReconnectGraceSecs runningTimeoutSecs =>
    exact fail_moves (by decide) h
  | expireStaleQueuedTasks ttlSecs maxPerTick locked => exact fail_moves (by decide) h
  | failExpiredRuntimeReconnectRetries reconnectGraceSecs runtimeStaleSecs maxPerTick locked =>
    exact fail_moves (by decide) h
  | _ => exact cancel_moves (by decide) h

/-! ## What a statement does to the queue -/

/-- No task is active that was not before. -/
structure Calm (db db' : Db) : Prop where
  agents : db'.agents = db.agents
  keyed : Rows.Keyed Task.id db.tasks → Rows.Keyed Task.id db'.tasks
  owned : (∀ t ∈ db.tasks, (db.agents t.agentId).isSome = true) →
    ∀ t ∈ db'.tasks, (db'.agents t.agentId).isSome = true
  count : ∀ agentId, db'.countRunningTasks agentId ≤ db.countRunningTasks agentId
  back : ∀ t' ∈ db'.tasks, t'.status.active = true → ∃ t ∈ db.tasks, t.status.active = true ∧ SameTask t t'

/-- A task that has begun stays, and one that is over stays as it is. -/
def Onward (db db' : Db) : Prop :=
  ∀ t ∈ db.tasks, t.status.begun = true → ∃ t' ∈ db'.tasks, t'.id = t.id ∧ t'.status.begun = true ∧
    (t.status.over = true → t'.status = t.status)

theorem Onward.of_mem (h : ∀ t ∈ db.tasks, t.status.begun = true → t ∈ db'.tasks) : Onward db db' :=
  fun t ht hbegun => ⟨t, h t ht hbegun, rfl, hbegun, fun _ => rfl⟩

theorem Onward.trans (h : Onward db db') (h' : Onward db' db'') : Onward db db'' := by
  intro t ht hbegun
  obtain ⟨t', ht', hid, hbegun', hover⟩ := h t ht hbegun
  obtain ⟨t'', ht'', hid', hbegun'', hover'⟩ := h' t' ht' hbegun'
  refine ⟨t'', ht'', hid'.trans hid, hbegun'', fun hold => ?_⟩
  have hsame := hover hold
  rw [← hsame] at hold
  exact (hover' hold).trans hsame

theorem Calm.refl (db : Db) : Calm db db where
  agents := rfl
  keyed h := h
  owned h := h
  count _ := Nat.le_refl _
  back t' ht' hactive := ⟨t', ht', hactive, .refl t'⟩

variable {p : Task → Bool} {f : Task → Task}

section

variable (h : ∀ t, p t = true → mayBecome t.status (f t).status = true ∧ SameTask t (f t))
include h

/-- Rows that are changed along the life cycle. -/
theorem update_calm :
    Calm db { db with tasks := Rows.update db.tasks p f } where
  agents := rfl
  keyed hkeyed := hkeyed.update p fun t hp => (h t hp).2.id
  owned howned := by
    intro t' ht'
    rcases Rows.mem_update.mp ht' with ⟨t, ht, hp, rfl⟩ | ⟨ht, -⟩
    · show (db.agents (f t).agentId).isSome = true
      rw [(h t hp).2.agentId]
      exact howned t ht
    · exact howned t' ht
  count agentId := by
    unfold Db.countRunningTasks Rows.update
    rw [countP_map]
    apply countP_mono_left
    intro t _ hactive
    simp only [Function.comp_apply, Bool.and_eq_true, decide_eq_true_iff] at hactive
    by_cases hp : p t = true
    · rw [if_pos hp] at hactive
      rw [Bool.and_eq_true, decide_eq_true_iff, ← (h t hp).2.agentId]
      exact ⟨hactive.1, mayBecome_active (h t hp).1 hactive.2⟩
    · rw [if_neg hp] at hactive
      rw [Bool.and_eq_true, decide_eq_true_iff]
      exact hactive
  back t' ht' hactive := by
    rcases Rows.mem_update.mp ht' with ⟨t, ht, hp, rfl⟩ | ⟨ht, -⟩
    · exact ⟨t, ht, mayBecome_active (h t hp).1 hactive, (h t hp).2⟩
    · exact ⟨t', ht, hactive, .refl t'⟩

theorem update_onward :
    Onward db { db with tasks := Rows.update db.tasks p f } := by
  intro t ht hbegun
  by_cases hp : p t = true
  · refine ⟨f t, Rows.mem_update.mpr (.inl ⟨t, ht, hp, rfl⟩), (h t hp).2.id,
      mayBecome_begun (h t hp).1 hbegun, fun hover => ?_⟩
    have hunfinished := mayBecome_unfinished (h t hp).1
    unfold Status.over at hover
    rw [hunfinished] at hover
    cases hover
  · exact ⟨t, Rows.mem_update.mpr (.inr ⟨ht, by simpa using hp⟩), rfl, hbegun, fun _ => rfl⟩

end

theorem run_cases (db : Db) (change : Change) :
    (db.run change).1 = db ∨
      (db.run change).1 = { db with tasks := Rows.update db.tasks (change.selects db) change.set } := by
  unfold Db.run
  dsimp only
  split
  · exact .inr rfl
  · exact .inl rfl

theorem run_calm (db : Db) (now : Nat) (st : Statement) : Calm db (db.run (st.change now)).1 := by
  rcases run_cases db (st.change now) with hrun | hrun
  · rw [hrun]
    exact .refl db
  · rw [hrun]
    exact update_calm fun t ht => ⟨statement_moves ht, statement_same st⟩

theorem run_onward (db : Db) (now : Nat) (st : Statement) : Onward db (db.run (st.change now)).1 := by
  rcases run_cases db (st.change now) with hrun | hrun
  · rw [hrun]
    exact .of_mem fun _ ht _ => ht
  · rw [hrun]
    exact update_onward fun t ht => ⟨statement_moves ht, statement_same st⟩

/-- A statement leaves alone what it does not select. -/
theorem run_mem {change : Change} (ht : t ∈ db.tasks) (hselects : change.selects db t = false) :
    t ∈ (db.run change).1.tasks := by
  rcases run_cases db change with hrun | hrun
  · rw [hrun]
    exact ht
  · rw [hrun]
    exact Rows.mem_update.mpr (.inr ⟨ht, hselects⟩)

/-! ## New tasks -/

theorem sealed_waits {sealedUntil : Option Nat} (h : t.status.active = false) :
    (deferChatTaskForSealedPendingMedia sealedUntil t).status.active = false := by
  unfold deferChatTaskForSealedPendingMedia
  split
  · exact h
  · split
    · rfl
    · exact h

/-- Every new task waits. -/
theorem row_waits {e : Enqueue} (h : e.row db now = some t) : t.status.active = false := by
  cases e with
  | createAgentTask id agentId runtimeId issueId priority triggerCommentId coalescedCommentIds =>
    cases h
    rfl
  | createDeferredChannelIssueTask id agentId runtimeId issueId priority triggerCommentId
      coalescedCommentIds fireAt =>
      cases h
      rfl
  | createQuickCreateTask id agentId runtimeId priority =>
    cases h
    rfl
  | createDeferredAgentTask id agentId runtimeId issueId priority triggerCommentId escalationForTaskId
      fireAt =>
      cases h
      rfl
  | createRetryTask newTaskId parentId fireAt =>
    obtain ⟨p, -, rfl⟩ := Option.map_eq_some_iff.mp h
    show (if fireAt.isSome then Status.deferred else .queued).active = false
    split <;> rfl
  | createManualQuickCreateRetryTask newTaskId sourceTaskId =>
    obtain ⟨p, -, rfl⟩ := Option.map_eq_some_iff.mp h
    rfl
  | createChatTask id agentId runtimeId priority chatSessionId fireAt sealedUntil =>
    cases h
    apply sealed_waits
    split <;> rfl
  | createAutopilotTask id agentId runtimeId priority autopilotRunId =>
    cases h
    rfl

theorem insert_cases (db : Db) (fence : Bool) (t : Task) :
    db.insert fence t = db ∨
      (db.insert fence t = { db with tasks := db.tasks ++ [t] } ∧
        (db.agents t.agentId).isSome = true ∧ ∀ t' ∈ db.tasks, t'.id ≠ t.id) := by
  unfold Db.insert
  split
  · rename_i hguard
    simp only [Bool.and_eq_true, all_eq_true, decide_eq_true_iff] at hguard
    exact .inr ⟨rfl, hguard.1.1.1.2, hguard.1.1.2⟩
  · exact .inl rfl

theorem enqueue_cases (db : Db) (now : Nat) (fence : Bool) (e : Enqueue) :
    db.enqueue now fence e = db ∨ ∃ t, db.enqueue now fence e = { db with tasks := db.tasks ++ [t] } ∧
      t.status.active = false ∧ (db.agents t.agentId).isSome = true ∧ ∀ t' ∈ db.tasks, t'.id ≠ t.id := by
  unfold Db.enqueue
  cases hrow : e.row db now with
  | none => exact .inl rfl
  | some t =>
    rcases insert_cases db fence t with hsame | ⟨hinsert, hagent, hfresh⟩
    · exact .inl hsame
    · exact .inr ⟨t, hinsert, row_waits hrow, hagent, hfresh⟩

theorem enqueue_calm (db : Db) (now : Nat) (fence : Bool) (e : Enqueue) :
    Calm db (db.enqueue now fence e) := by
  rcases enqueue_cases db now fence e with hsame | ⟨t, hinsert, hwaits, hagent, hfresh⟩
  · rw [hsame]
    exact .refl db
  · rw [hinsert]
    refine ⟨rfl, fun hkeyed => hkeyed.insert hfresh, ?_, ?_, ?_⟩
    · intro howned t' ht'
      rcases mem_append.mp ht' with ht' | ht'
      · exact howned t' ht'
      · rw [mem_singleton.mp ht']
        exact hagent
    · intro agentId
      unfold Db.countRunningTasks
      rw [countP_append, countP_singleton, hwaits, Bool.and_false]
      exact Nat.le_refl _
    · intro t' ht' hactive
      rcases mem_append.mp ht' with ht' | ht'
      · exact ⟨t', ht', hactive, .refl t'⟩
      · rw [mem_singleton.mp ht', hwaits] at hactive
        cases hactive

theorem enqueue_mem {fence : Bool} {e : Enqueue} (ht : t ∈ db.tasks) :
    t ∈ (db.enqueue now fence e).tasks := by
  rcases enqueue_cases db now fence e with hsame | ⟨t', hinsert, -⟩
  · rw [hsame]
    exact ht
  · rw [hinsert]
    exact mem_append_left _ ht

theorem delete_calm (db : Db) (taskId : Nat) : Calm db (db.deleteUnstartedQuickCreateRetryTask taskId) where
  agents := rfl
  keyed h := h.sublist (filter_sublist.map Task.id)
  owned h := fun t ht => h t (mem_of_mem_filter ht)
  count _ := filter_sublist.countP_le
  back t' ht' hactive := ⟨t', mem_of_mem_filter ht', hactive, .refl t'⟩

variable {taskId : Nat}

theorem delete_mem (ht : t ∈ db.tasks) (hkept : unstartedQuickCreate taskId t = false) :
    t ∈ (db.deleteUnstartedQuickCreateRetryTask taskId).tasks :=
  mem_filter.mpr ⟨ht, by rw [hkept]; rfl⟩

theorem unstarted_not_begun (h : t.status.begun = true) :
    unstartedQuickCreate taskId t = false := by
  unfold unstartedQuickCreate
  cases hstatus : t.status <;> rw [hstatus] at h <;> first | exact absurd h (by decide) | simp

end ClawMessenger.Ports.TaskQueue
