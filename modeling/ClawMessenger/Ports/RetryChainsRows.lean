import ClawMessenger.Ports.RetryChains

/-!
# Rows of the queue over a run

A row is changed along its life and stays as it is once that is over (`Kept`);
a step of the queue other than an insertion changes rows in place (`Moved`) and
keeps the pending slots distinct.  An insertion either stores its row, which
then has a fresh id, a runtime and its slot (`Stored`), or nothing.
-/

namespace ClawMessenger.Ports.RetryChains

open ClawMessenger.Verified ClawMessenger.Ports.TaskQueue Machine List
open TaskQueue.State (step)

variable {s : State} {db : Db} {tasks tasks' : List Task} {t t' parent child : Task}

/-! ## Rows over their life -/

/-- What a step leaves of a row. -/
structure Kept (t t' : Task) : Prop where
  same : SameTask t t'
  retryOfTaskId : t'.retryOfTaskId = t.retryOfTaskId
  triggerCommentId : t'.triggerCommentId = t.triggerCommentId
  coalescedCommentIds : t'.coalescedCommentIds = t.coalescedCommentIds
  ended : t.status.over = true → t' = t

theorem Kept.refl (t : Task) : Kept t t := ⟨.refl t, rfl, rfl, rfl, fun _ => rfl⟩

def Moved (tasks tasks' : List Task) : Prop := ∃ f, tasks' = tasks.map f ∧ ∀ t ∈ tasks, Kept t (f t)

theorem Moved.refl (tasks : List Task) : Moved tasks tasks :=
  ⟨id, (map_id tasks).symm, fun t _ => .refl t⟩

variable {p : Task → Bool} {f : Task → Task}

theorem Moved.update (h : ∀ t ∈ tasks, p t = true → Kept t (f t)) :
    Moved tasks (Rows.update tasks p f) := by
  refine ⟨fun t => if p t then f t else t, rfl, ?_⟩
  intro t ht
  show Kept t (if p t then f t else t)
  by_cases hp : p t = true
  · rw [if_pos hp]
    exact h t ht hp
  · rw [if_neg hp]
    exact .refl t

variable {now : Nat}

theorem statement_kept {st : Statement} (h : (st.change now).selects db t = true) :
    Kept t ((st.change now).set t) := by
  have hunfinished := mayBecome_unfinished (statement_moves h)
  refine ⟨statement_same st, by cases st <;> rfl, by cases st <;> rfl, by cases st <;> rfl, fun hover => ?_⟩
  unfold Status.over at hover
  rw [hunfinished] at hover
  cases hover

theorem run_moved (db : Db) (now : Nat) (st : Statement) :
    Moved db.tasks (db.run (st.change now)).1.tasks := by
  rcases run_cases db (st.change now) with hrun | hrun
  · rw [hrun]
    exact .refl db.tasks
  · rw [hrun]
    exact .update fun t _ ht => statement_kept ht

/-- The steps of a queue other than an insertion and a deletion. -/
def changes : TaskQueue.Event → Bool
  | .enqueue .. => false
  | .deleteUnstartedQuickCreateRetryTask _ => false
  | _ => true

variable {q : TaskQueue.State}

theorem commit_moved (h : Sound q) {n : Nat} {c : Claim} (hc : q.claims n = some c) :
    Moved q.db.tasks (q.commit n c).2.db.tasks := by
  rcases commit_cases q n c with hcommit | ⟨t, secs, hphase, hcommit⟩
  · rw [hcommit]
    exact .refl q.db.tasks
  · rw [hcommit]
    obtain ⟨ht, hqueued, -⟩ := (h.holds n c hc).row t secs hphase
    apply Moved.update
    intro row hrow hid
    rw [decide_eq_true_iff] at hid
    have heq := h.keyed.eq_of_key hrow ht hid
    subst heq
    refine ⟨⟨rfl, rfl, rfl, rfl, rfl, rfl⟩, rfl, rfl, rfl, fun hover => ?_⟩
    rw [hqueued] at hover
    cases hover

theorem queue_moved (h : TaskQueue.Sound q) {e : TaskQueue.Event} (he : changes e = true) :
    Moved q.db.tasks (q.step e).2.db.tasks := by
  cases e with
  | enqueue now fence e | deleteUnstartedQuickCreateRetryTask taskId => cases he
  | run now st => exact run_moved q.db now st
  | claim n agentId runtimeId now =>
    simp only [step]
    split
    · exact .refl q.db.tasks
    · split <;> exact .refl q.db.tasks
  | countRunningTasks n =>
    simp only [step]
    split
    · exact .refl q.db.tasks
    · unfold TaskQueue.State.count
      split
      · split <;> exact .refl q.db.tasks
      · exact .refl q.db.tasks
  | claimAgentTask n prepareLeaseSecs runtimeStaleSecs locked =>
    simp only [step]
    split
    · exact .refl q.db.tasks
    · unfold TaskQueue.State.take
      split
      · split <;> exact .refl q.db.tasks
      · exact .refl q.db.tasks
  | commitClaim n =>
    simp only [step]
    cases hc : q.claims n with
    | none => exact .refl q.db.tasks
    | some c => exact commit_moved h hc
  | rollbackClaim n | saveAgent agentId agent | saveRuntime runtimeId runtime => exact .refl q.db.tasks

/-! ## The pending slot -/

theorem slots_update (h : slotsDistinct tasks = true)
    (hf : ∀ t ∈ tasks, p t = true → (f t).pending = true → t.pending = true ∧ SameTask t (f t)) :
    slotsDistinct (Rows.update tasks p f) = true := by
  have hback : ∀ t' ∈ Rows.update tasks p f, t'.pending = true →
      ∃ t ∈ tasks, t.pending = true ∧ SameTask t t' := by
    intro t' ht' hpending
    rcases Rows.mem_update.mp ht' with ⟨t, ht, hp, rfl⟩ | ⟨ht, -⟩
    · exact ⟨t, ht, hf t ht hp hpending⟩
    · exact ⟨t', ht, hpending, .refl t'⟩
  unfold slotsDistinct at h ⊢
  rw [all_eq_true] at h ⊢
  intro u hu
  rw [all_eq_true]
  intro v hv
  by_cases hslot : u.sameSlot v = true
  · have hpending := hslot
    unfold Task.sameSlot at hpending
    simp only [Bool.and_eq_true, decide_eq_true_iff] at hpending
    obtain ⟨⟨⟨hpu, hpv⟩, hissue⟩, hagent⟩ := hpending
    obtain ⟨t, ht, hpt, hsame⟩ := hback u hu hpu
    obtain ⟨t', ht', hpt', hsame'⟩ := hback v hv hpv
    have hdistinct := all_eq_true.mp (h t ht) t' ht'
    have hold : t.sameSlot t' = true := by
      unfold Task.sameSlot
      rw [hpt, hpt', ← hsame.issueId, ← hsame'.issueId, ← hsame.agentId, ← hsame'.agentId, hissue, hagent]
      simp
    rw [hold, Bool.not_true, Bool.or_false, decide_eq_true_iff] at hdistinct
    rw [hsame.id, hsame'.id, hdistinct]
    simp
  · rw [Bool.not_eq_true] at hslot
    rw [hslot]
    simp

theorem run_slots (h : slotsDistinct db.tasks = true) (change : Change) :
    slotsDistinct (db.run change).1.tasks = true := by
  unfold Db.run
  dsimp only
  split
  · assumption
  · exact h

theorem queue_slots (h : TaskQueue.Sound q) {e : TaskQueue.Event} (he : changes e = true)
    (hslots : slotsDistinct q.db.tasks = true) :
    slotsDistinct (q.step e).2.db.tasks = true := by
  cases e with
  | enqueue now fence e | deleteUnstartedQuickCreateRetryTask taskId => cases he
  | run now st => exact run_slots hslots _
  | claim n agentId runtimeId now =>
    simp only [step]
    split
    · exact hslots
    · split <;> exact hslots
  | countRunningTasks n =>
    simp only [step]
    split
    · exact hslots
    · unfold TaskQueue.State.count
      split
      · split <;> exact hslots
      · exact hslots
  | claimAgentTask n prepareLeaseSecs runtimeStaleSecs locked =>
    simp only [step]
    split
    · exact hslots
    · unfold TaskQueue.State.take
      split
      · split <;> exact hslots
      · exact hslots
  | commitClaim n =>
    simp only [step]
    cases hc : q.claims n with
    | none => exact hslots
    | some c =>
      dsimp only
      rcases commit_cases q n c with hcommit | ⟨t, secs, hphase, hcommit⟩
      · rw [hcommit]
        exact hslots
      · rw [hcommit]
        obtain ⟨ht, hqueued, -⟩ := (h.holds n c hc).row t secs hphase
        apply slots_update hslots
        intro row hrow hid _
        rw [decide_eq_true_iff] at hid
        have heq := h.keyed.eq_of_key hrow ht hid
        subst heq
        refine ⟨?_, ⟨rfl, rfl, rfl, rfl, rfl, rfl⟩⟩
        unfold Task.pending
        rw [hqueued]
        rfl
  | rollbackClaim n | saveAgent agentId agent | saveRuntime runtimeId runtime => exact hslots

/-! ## New rows -/

theorem sealed_eq (sealedUntil : Option Nat) (t : Task) :
    deferChatTaskForSealedPendingMedia sealedUntil t = t ∨
      ∃ fireAt, deferChatTaskForSealedPendingMedia sealedUntil t = { t with status := .deferred, fireAt := fireAt } := by
  unfold deferChatTaskForSealedPendingMedia
  split
  · exact .inl rfl
  · split
    · exact .inr ⟨_, rfl⟩
    · exact .inl rfl

variable {e : Enqueue}

theorem row_completedAt (h : e.row db now = some t) : t.completedAt = none := by
  cases e with
  | createRetryTask newTaskId parentId fireAt =>
    obtain ⟨p, -, rfl⟩ := Option.map_eq_some_iff.mp h
    rfl
  | createManualQuickCreateRetryTask newTaskId sourceTaskId =>
    obtain ⟨p, -, rfl⟩ := Option.map_eq_some_iff.mp h
    rfl
  | createChatTask id agentId runtimeId priority chatSessionId fireAt sealedUntil =>
    obtain rfl := Option.some.inj h
    rcases sealed_eq sealedUntil { Task.new id agentId runtimeId priority now with
      chatSessionId := some chatSessionId
      status := if fireAt.isNone then .queued else .deferred
      fireAt := fireAt } with heq | ⟨_, heq⟩ <;> rw [heq] <;> rfl
  | _ =>
    cases h
    rfl

/-- A task that is no retry. -/
theorem root_row (hroot : root e = true) (h : e.row db now = some t) :
    t.retryOfTaskId = none := by
  cases e with
  | createRetryTask newTaskId parentId fireAt
  | createManualQuickCreateRetryTask newTaskId sourceTaskId => cases hroot
  | createChatTask id agentId runtimeId priority chatSessionId fireAt sealedUntil =>
    obtain rfl := Option.some.inj h
    rcases sealed_eq sealedUntil { Task.new id agentId runtimeId priority now with
      chatSessionId := some chatSessionId
      status := if fireAt.isNone then .queued else .deferred
      fireAt := fireAt } with heq | ⟨_, heq⟩ <;> rw [heq] <;> rfl
  | _ =>
    cases h
    rfl

/-- A quick-create, which has none of the links of other tasks. -/
def Unlinked (t : Task) : Prop := t.issueId = none ∧ t.chatSessionId = none ∧ t.autopilotRunId = none

theorem quickCreate_row (hquick : quickCreates e = true) (h : e.row db now = some t) :
    Unlinked t := by
  cases e with
  | createQuickCreateTask id agentId runtimeId priority =>
    cases h
    exact ⟨rfl, rfl, rfl⟩
  | _ => cases hquick

theorem manual_row {newTaskId sourceTaskId : Nat}
    (h : (Enqueue.createManualQuickCreateRetryTask newTaskId sourceTaskId).row db now = some t) :
    t.retryOfTaskId = none ∧ Unlinked t := by
  obtain ⟨p, -, rfl⟩ := Option.map_eq_some_iff.mp h
  exact ⟨rfl, rfl, rfl, rfl⟩

/-- An insertion that has stored its row. -/
structure Stored (db : Db) (now : Nat) (fence : Bool) (e : Enqueue) (t : Task) : Prop where
  row : e.row db now = some t
  enqueue : db.enqueue now fence e = { db with tasks := db.tasks ++ [t] }
  fresh : ∀ t' ∈ db.tasks, t'.id ≠ t.id
  slots : slotsDistinct (db.tasks ++ [t]) = true
  runtime : t.runtimeId.isSome = true

theorem enqueue_stored {fence : Bool} (h : e.row db now = some t) :
    db.enqueue now fence e = db ∨ Stored db now fence e t := by
  have henqueue : db.enqueue now fence e = db.insert fence t := by
    unfold Db.enqueue
    rw [h]
  by_cases hguard : (fence && (db.agents t.agentId).isSome && db.tasks.all (fun t' => t'.id ≠ t.id) &&
      (t.runtimeId.isSome || t.completedAt.isSome) && slotsDistinct (db.tasks ++ [t])) = true
  · right
    have hinsert : db.insert fence t = { db with tasks := db.tasks ++ [t] } := if_pos hguard
    simp only [Bool.and_eq_true, all_eq_true, decide_eq_true_iff, row_completedAt h,
      Option.isSome_none, Bool.or_false] at hguard
    exact ⟨h, henqueue.trans hinsert, hguard.1.1.2, hguard.2, hguard.1.2⟩
  · left
    exact henqueue.trans (if_neg hguard)

/-! ## The statement of a retry -/

section CreateRetry

variable {now newTaskId parentId : Nat} {fireAt : Option Nat} {fence : Bool}

theorem createRetryTask_stored (h : createRetryTask db now newTaskId parentId fireAt fence = .row child) :
    Stored db now fence (.createRetryTask newTaskId parentId fireAt) child := by
  unfold createRetryTask at h
  cases hrow : (Enqueue.createRetryTask newTaskId parentId fireAt).row db now with
  | none =>
    rw [hrow] at h
    cases h
  | some t =>
    rw [hrow] at h
    dsimp only at h
    split at h
    · cases h
    · rename_i hfence
      split at h
      · cases h
      · rename_i hruntime
        split at h
        · cases h
        · rename_i hslots
          split at h
          · cases h
          · rename_i hfresh
            cases h
            rw [Bool.not_eq_true, Bool.not_eq_false', Bool.and_eq_true] at hfence
            rw [Bool.not_eq_true, Bool.not_eq_false'] at hslots
            rw [any_eq_true] at hfresh
            have hkey : ∀ t' ∈ db.tasks, t'.id ≠ child.id := by
              intro t' ht' heq
              exact hfresh ⟨t', ht', decide_eq_true heq⟩
            have hsome : child.runtimeId.isSome = true := by
              rw [row_completedAt hrow] at hruntime
              cases hid : child.runtimeId with
              | none => exact absurd (by rw [hid]; rfl) hruntime
              | some id => rfl
            refine ⟨hrow, ?_, hkey, hslots, hsome⟩
            have hguard : (fence && (db.agents child.agentId).isSome &&
                db.tasks.all (fun t' => t'.id ≠ child.id) &&
                (child.runtimeId.isSome || child.completedAt.isSome) &&
                slotsDistinct (db.tasks ++ [child])) = true := by
              simp only [Bool.and_eq_true, all_eq_true, decide_eq_true_iff]
              exact ⟨⟨⟨hfence, hkey⟩, by rw [hsome, Bool.true_or]⟩, hslots⟩
            unfold Db.enqueue
            rw [hrow]
            exact if_pos hguard

/-- What the child takes from its parent. -/
theorem retry_row (hkeyed : Rows.Keyed Task.id db.tasks) (hparent : parent ∈ db.tasks)
    (h : (Enqueue.createRetryTask newTaskId parent.id fireAt).row db now = some child) :
    child.id = newTaskId ∧ child.retryOfTaskId = some parent.id ∧ child.runtimeId = parent.runtimeId ∧
      child.issueId = parent.issueId ∧ child.chatSessionId = parent.chatSessionId ∧
      child.autopilotRunId = parent.autopilotRunId ∧
      child.triggerCommentId = parent.triggerCommentId ∧
      child.coalescedCommentIds = parent.coalescedCommentIds ∧
      (child.status = .queued ∨ child.status = .deferred) := by
  obtain ⟨p, hp, rfl⟩ := Option.map_eq_some_iff.mp h
  have hid := find?_some hp
  rw [decide_eq_true_iff] at hid
  have heq := hkeyed.eq_of_key (mem_of_find?_eq_some hp) hparent hid
  subst heq
  refine ⟨rfl, rfl, rfl, rfl, rfl, rfl, rfl, rfl, ?_⟩
  show (if fireAt.isSome then Status.deferred else .queued) = .queued ∨
    (if fireAt.isSome then Status.deferred else .queued) = .deferred
  split
  · exact .inr rfl
  · exact .inl rfl

/-- The statement fails for no row that has a runtime, with a fresh id. -/
theorem createRetryTask_ne_failed (hkeyed : Rows.Keyed Task.id db.tasks) (hparent : parent ∈ db.tasks)
    (hruntime : parent.runtimeId.isSome = true) (hfresh : ∀ t ∈ db.tasks, t.id ≠ newTaskId) :
    createRetryTask db now newTaskId parent.id fireAt fence ≠ .failed := by
  intro h
  unfold createRetryTask at h
  cases hrow : (Enqueue.createRetryTask newTaskId parent.id fireAt).row db now with
  | none =>
    rw [hrow] at h
    cases h
  | some t =>
    obtain ⟨hid, -, hsame, -⟩ := retry_row hkeyed hparent hrow
    rw [hrow] at h
    dsimp only at h
    rw [hsame, Option.isNone_eq_false_iff.mpr hruntime, Bool.false_and, if_neg Bool.false_ne_true] at h
    have hkey : (db.tasks.any fun t' => t'.id = t.id) = false := by
      rw [any_eq_false]
      intro t' ht' heq
      rw [decide_eq_true_iff] at heq
      exact hfresh t' ht' (heq.trans hid)
    rw [hkey, if_neg Bool.false_ne_true] at h
    split at h
    · cases h
    · split at h <;> cases h

end CreateRetry

end ClawMessenger.Ports.RetryChains
