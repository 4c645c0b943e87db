import ClawMessenger.Ports.RetryChainsLinear

/-!
# Retry chains are linear and bounded

Every step keeps the invariant.  The attempt of a task is its place in its
chain, and the ceiling that is written into each child bounds it.
-/

namespace ClawMessenger.Ports.RetryChains

open ClawMessenger.Verified ClawMessenger.Ports.TaskQueue Machine List
open Function (update update_apply)

variable {s s' : State} {db : Db} {t t' : Task} {now newTaskId : Nat} {successor fence : Bool}

/-! ## Steps of the queue -/

/-- The row is over, and no other part of the state says otherwise. -/
theorem Linear.finish (h : Linear s) (ids : List Nat)
    (hover : ∀ id ∈ ids, ∃ t ∈ s.tasks, t.id = id ∧ t.status.over = true)
    (hunhandled : ∀ u ∈ s.unhandled, u.id ∉ ids) : Linear { s with finished := ids ++ s.finished } := by
  refine ⟨h.sound, h.slots, h.runtime, h.first, h.root, h.retry, h.only, ?_, ?_, ?_, h.failing⟩
  · intro t ht hsource
    obtain ⟨hissue, hrest⟩ := h.source t ht hsource
    rcases hissue with hissue | hfinished
    · exact ⟨.inl hissue, hrest⟩
    · exact ⟨.inr (mem_append_right _ hfinished), hrest⟩
  · intro id hid
    rcases mem_append.mp hid with hid | hid
    · exact hover id hid
    · exact h.finished id hid
  · intro u hu
    obtain ⟨hmem, hfailed, hfinished, hnone⟩ := h.unhandled u hu
    refine ⟨hmem, hfailed, fun hid => ?_, hnone⟩
    rcases mem_append.mp hid with hid | hid
    · exact hunhandled u hu hid
    · exact hfinished hid

theorem Linear.handOver (h : Linear s) {rows : List Task}
    (hrows : ∀ u ∈ rows, u ∈ s.tasks ∧ u.status = .failed ∧ u.id ∉ s.finished ∧
      ∀ t ∈ s.tasks, t.retryOfTaskId ≠ some u.id) :
    Linear { s with unhandled := s.unhandled ++ rows } := by
  refine ⟨h.sound, h.slots, h.runtime, h.first, h.root, h.retry, h.only, h.source, h.finished, ?_, h.failing⟩
  intro u hu
  rcases mem_append.mp hu with hu | hu
  · exact h.unhandled u hu
  · exact hrows u hu

variable {st : Statement}

theorem handled_fails (h : handled st = true) :
    ((st.change now).set t).status = .failed := by
  cases st <;> first | rfl | cases h

/-- The rows that a statement returns. -/
theorem run_row (h : t' ∈ (db.run (st.change now)).2) :
    ∃ t ∈ db.tasks, t.status.over = false ∧ SameTask t t' ∧ t' = (st.change now).set t ∧
      t' ∈ (db.run (st.change now)).1.tasks := by
  unfold Db.run at h ⊢
  dsimp only at h ⊢
  split at h
  · obtain ⟨t, ht, rfl⟩ := mem_map.mp h
    unfold Db.changed at ht
    rw [mem_filter] at ht
    have hmoves := statement_moves ht.2
    refine ⟨t, ht.1, ?_, statement_same st, rfl, ?_⟩
    · unfold Status.over
      rw [mayBecome_unfinished hmoves]
      rfl
    · rw [if_pos (by assumption)]
      exact Rows.mem_update.mpr (.inl ⟨t, ht.1, ht.2, rfl⟩)
  · cases h

theorem Linear.queue (h : Linear s) {e : TaskQueue.Event} (hunlocked : s.unlocked e)
    (he : changes e = true) : Linear ({ s with queue := (s.queue.step e).2 }.after (s.queue.step e).1 e) := by
  have hnext : Linear { s with queue := (s.queue.step e).2 } :=
    h.moved (TaskQueue.Sound.step h.sound hunlocked) (queue_slots h.sound he h.slots) (queue_moved h.sound he)
  unfold State.after
  split
  · rename_i now st
    have hrow : ∀ u ∈ (s.queue.db.run (st.change now)).2, ∃ t ∈ s.tasks, t.status.over = false ∧
        SameTask t u ∧ u = (st.change now).set t ∧ u ∈ (s.queue.db.run (st.change now)).1.tasks :=
      fun u hu => run_row hu
    split
    · rename_i hst
      apply hnext.handOver
      intro u hu
      obtain ⟨t, ht, hover, hsame, hset, hmem⟩ := hrow u hu
      refine ⟨hmem, by rw [hset]; exact handled_fails hst, ?_, ?_⟩
      · rw [hsame.id]
        exact h.not_finished ht hover
      · intro t' ht'
        obtain ⟨f, htasks, hkept⟩ := run_moved s.queue.db now st
        change t' ∈ (s.queue.db.run (st.change now)).1.tasks at ht'
        rw [htasks] at ht'
        obtain ⟨old, hold, rfl⟩ := mem_map.mp ht'
        rw [(hkept old hold).retryOfTaskId, hsame.id]
        exact h.no_retry ht hover old hold
    · split
      · rename_i id
        apply hnext.finish
        · intro taskId hid
          obtain ⟨u, hu, rfl⟩ := mem_map.mp hid
          obtain ⟨t, -, -, -, hset, hmem⟩ := hrow u hu
          refine ⟨u, hmem, rfl, ?_⟩
          rw [hset]
          rfl
        · intro u hu hid
          obtain ⟨u', hu', heq⟩ := mem_map.mp hid
          obtain ⟨t, ht, hover, hsame, -⟩ := hrow u' hu'
          exact h.not_unhandled ht hover u hu (heq.symm.trans hsame.id)
      · exact hnext
  · exact hnext

/-! ## `FailTask` -/

/-- The queue after a change that the index allows. -/
def applied (db : Db) (change : Change) : Db :=
  { db with tasks := Rows.update db.tasks (change.selects db) change.set }

/-- The statement of a `FailTask` is never refused by the index. -/
theorem fail_run (hslots : slotsDistinct db.tasks = true) (call : Failing) (now : Nat) :
    db.run (call.statement.change now) = (applied db (call.statement.change now),
      (db.changed (call.statement.change now)).map (call.statement.change now).set) := by
  unfold Db.run
  rw [if_pos]
  · rfl
  · apply slots_update hslots
    intro t _ _ hpending
    cases hpending

/-- What the transaction of a `FailTask` leaves of the row. -/
def FailedAs (call : Failing) (t : Task) : Prop :=
  t.id = call.taskId ∧ t.status = .failed ∧
    t.failureReason = some (if call.failureReason = "" then "agent_error" else call.failureReason)

variable {call : Failing}

theorem fail_selects (h : (call.statement.change now).selects db t = true) :
    t.id = call.taskId ∧ t.status.active = true := by
  unfold Failing.statement at h
  simp only [Statement.change, fail, Bool.and_eq_true, decide_eq_true_iff] at h
  refine ⟨h.2, ?_⟩
  have hstates := contains_iff_mem.mp h.1
  cases hstatus : t.status <;> rw [hstatus] at hstates <;> first | rfl | exact absurd hstates (by decide)

theorem fail_selects_of (hid : t.id = call.taskId) (hactive : t.status.active = true) :
    (call.statement.change now).selects db t = true := by
  unfold Failing.statement
  simp only [Statement.change, fail, Bool.and_eq_true, decide_eq_true_iff]
  refine ⟨?_, hid⟩
  cases hstatus : t.status <;> rw [hstatus] at hactive <;> first | rfl | cases hactive

theorem fail_set (call : Failing) (hid : t.id = call.taskId) :
    FailedAs call ((call.statement.change now).set t) := by
  refine ⟨hid, rfl, ?_⟩
  show some ((if call.failureReason = "" then none else some call.failureReason).getD "agent_error") = _
  split <;> rfl

/-- The row of a `FailTask` once it has failed. -/
theorem Linear.failed (h : Linear s) (ht : t ∈ s.tasks)
    (hselects : (call.statement.change now).selects s.queue.db t = true)
    (hunlocked : s.unlocked (.run now call.statement)) :
    let row := (call.statement.change now).set t
    let failed := { s.withDb (applied s.queue.db (call.statement.change now)) with
      finished := row.id :: s.finished }
    Linear failed ∧ row ∈ failed.tasks ∧ SameTask t row ∧ (∀ t' ∈ failed.tasks, t'.retryOfTaskId ≠ some row.id) ∧
      ∀ u ∈ failed.unhandled, u.id ≠ row.id := by
  obtain ⟨hid, hactive⟩ := fail_selects hselects
  have hover := not_over_of_active hactive
  have hrun : (s.queue.db.run (call.statement.change now)).1 = applied s.queue.db (call.statement.change now) := by
    rw [fail_run h.slots call now]
  have hmoved := run_moved s.queue.db now call.statement
  have hslots := run_slots h.slots (call.statement.change now)
  have hsound : Sound { s.queue with db := (s.queue.db.run (call.statement.change now)).1 } :=
    Sound.step h.sound hunlocked
  rw [hrun] at hmoved hslots hsound
  have hnext : Linear (s.withDb (applied s.queue.db (call.statement.change now))) := h.moved hsound hslots hmoved
  have hsame := (statement_kept hselects).same
  have hstored : (call.statement.change now).set t ∈ (applied s.queue.db (call.statement.change now)).tasks :=
    Rows.mem_update.mpr (.inl ⟨t, ht, hselects, rfl⟩)
  have hunhandled : ∀ u ∈ s.unhandled, u.id ≠ ((call.statement.change now).set t).id := by
    intro u hu heq
    exact h.not_unhandled ht hover u hu (heq.trans hsame.id)
  refine ⟨?_, hstored, hsame, ?_, hunhandled⟩
  · apply hnext.finish [((call.statement.change now).set t).id]
    · intro id hmem
      exact ⟨_, hstored, (mem_singleton.mp hmem).symm, rfl⟩
    · intro u hu hmem
      exact hunhandled u hu (mem_singleton.mp hmem)
  · intro t' ht'
    obtain ⟨f, htasks, hkept⟩ := hmoved
    change t' ∈ (applied s.queue.db (call.statement.change now)).tasks at ht'
    rw [htasks] at ht'
    obtain ⟨old, hold, rfl⟩ := mem_map.mp ht'
    rw [(hkept old hold).retryOfTaskId, hsame.id]
    exact h.no_retry ht hover old hold

/-- The transaction fails the row if it is active, and else changes nothing. -/
theorem Linear.failTask (h : Linear s)
    (hwant : ∀ retry, call.retry = some retry → Wanted s call retry)
    (hunlocked : s.unlocked (.run now call.statement)) (hfresh : ∀ t ∈ s.tasks, t.id ≠ newTaskId)
    (successor fence : Bool) :
    (s.failTask call now newTaskId successor fence = none ∧
        ∀ t ∈ s.tasks, t.id = call.taskId → t.status.active = false) ∨
      ∃ s', s.failTask call now newTaskId successor fence = some s' ∧ Linear s' ∧
        ∃ t ∈ s'.tasks, FailedAs call t := by
  unfold State.failTask
  rw [fail_run h.slots call now]
  cases hchanged : s.queue.db.changed (call.statement.change now) with
  | nil =>
    left
    refine ⟨rfl, fun t ht hid => ?_⟩
    by_contra hactive
    rw [Bool.not_eq_false] at hactive
    have hmem : t ∈ s.queue.db.changed (call.statement.change now) :=
      mem_filter.mpr ⟨ht, fail_selects_of hid hactive⟩
    rw [hchanged] at hmem
    cases hmem
  | cons t rest =>
    right
    have hmem : t ∈ s.queue.db.changed (call.statement.change now) := by
      rw [hchanged]
      exact mem_cons_self
    obtain ⟨ht, hselects⟩ := mem_filter.mp hmem
    obtain ⟨hid, hactive⟩ := fail_selects hselects
    have hset : FailedAs call ((call.statement.change now).set t) := fail_set call hid
    obtain ⟨hlinear, hstored, hsame, hfirst, halone⟩ := h.failed ht hselects hunlocked
    rw [map_cons]
    generalize (call.statement.change now).set t = row at *
    cases hretry : call.retry with
    | none => exact ⟨_, rfl, hlinear, row, hstored, hset⟩
    | some retry =>
      dsimp only
      split
      · exact ⟨_, rfl, hlinear, row, hstored, hset⟩
      · obtain ⟨t', ht', hid', heligible, hmax⟩ := hwant retry hretry
        have heq := h.keyed.eq_of_key ht' ht (hid'.trans hid.symm)
        subst heq
        have hready : Ready { s.withDb (applied s.queue.db (call.statement.change now)) with
            finished := row.id :: s.finished } row call.failureReason := by
          refine ⟨hstored, hset.2.1, ?_, ?_, hfirst, halone, ?_⟩
          · rw [hset.2.2, if_neg (reason_ne_empty heligible.retryable)]
          · show Eligible call.failureReason row (s.columns row.id)
            rw [hsame.id]
            exact ⟨heligible.retryable, heligible.budget, hsame.autopilotRunId.trans heligible.noRun⟩
          · intro hsource
            rw [hsame.id] at hsource
            obtain ⟨hissue, hchat, hrun⟩ := h.source t' ht hsource
            have hlinked := h.not_finished ht (not_over_of_active hactive)
            exact ⟨hsame.issueId.trans (hissue.resolve_right hlinked), hsame.chatSessionId.trans hchat,
              hsame.autopilotRunId.trans hrun⟩
        have hnew : ∀ t ∈ (applied s.queue.db (call.statement.change now)).tasks, t.id ≠ newTaskId := by
          intro u hu
          rcases Rows.mem_update.mp hu with ⟨old, hold, hsel, rfl⟩ | ⟨hold, -⟩
          · rw [(statement_kept hsel).same.id]
            exact hfresh old hold
          · exact hfresh u hold
        have hbudget : retry.maxAttempts =
            retryAttemptCeiling call.failureReason (s.columns row.id).maxAttempts := by
          rw [hsame.id]
          exact hmax
        obtain ⟨s', hs', hlinear', hkept⟩ := hlinear.retryFailed hready hbudget hnew
        exact ⟨s', hs', hlinear', row, hkept row hstored, hset⟩

/-! ## `HandleFailedTasks` -/

theorem maybeRetry_unhandled (s : State) (parent : Task) (rows : List Task) :
    { s.maybeRetryFailedTask parent now newTaskId successor fence with unhandled := rows } =
      { s with unhandled := rows }.maybeRetryFailedTask parent now newTaskId successor fence := by
  unfold State.maybeRetryFailedTask
  dsimp only
  split
  · rfl
  · split
    · rfl
    · split
      · rfl
      · cases createRetryTask s.queue.db now newTaskId parent.id _ fence with
        | nothing | failed => rfl
        | row child =>
          dsimp only
          cases transferPendingSourceContextToRetry s.sourceContexts (s.columns parent.id).context
            parent.id child.id <;> rfl

theorem Linear.maybeRetryFailedTask (h : Linear s) (hmem : t ∈ s.tasks)
    (hfirst : ∀ t' ∈ s.tasks, t'.retryOfTaskId ≠ some t.id) (halone : ∀ u ∈ s.unhandled, u.id ≠ t.id)
    (hfinished : t.id ∉ s.finished) :
    Linear (s.maybeRetryFailedTask t now newTaskId successor fence) := by
  unfold State.maybeRetryFailedTask
  dsimp only
  split
  · exact h
  · rename_i hfailed
    rw [not_not] at hfailed
    split
    · exact h
    · rename_i heligible
      rw [Bool.not_eq_true, Bool.not_eq_false'] at heligible
      have heligible := eligible_of_retryEligible heligible
      have hreason : t.failureReason = some (t.failureReason.getD "") := by
        cases hsome : t.failureReason with
        | none =>
          rw [hsome] at heligible
          exact absurd rfl (reason_ne_empty heligible.retryable)
        | some reason => rfl
      have hready : Ready s t (t.failureReason.getD "") := by
        refine ⟨hmem, hfailed, hreason, heligible, hfirst, halone, fun hsource => ?_⟩
        obtain ⟨hissue, hchat, hrun⟩ := h.source t hmem hsource
        exact ⟨hissue.resolve_right hfinished, hchat, hrun⟩
      split
      · exact h
      · cases hcreated : createRetryTask s.queue.db now newTaskId t.id
            (retryFireAt (t.failureReason.getD "") (s.columns t.id).attempt now) fence with
        | nothing => exact h
        | failed => exact h
        | row child =>
          have hadded := h.addChild hready hcreated
          dsimp only
          cases transferPendingSourceContextToRetry s.sourceContexts (s.columns t.id).context t.id child.id with
          | unneeded => exact hadded
          | moved sourceContexts =>
            exact ⟨hadded.sound, hadded.slots, hadded.runtime, hadded.first, hadded.root, hadded.retry,
              hadded.only, hadded.source, hadded.finished, hadded.unhandled, hadded.failing⟩
          | lost => exact h

variable {taskId : Nat}

theorem Linear.handle (h : Linear s) (ht : t ∈ s.unhandled) (hid : t.id = taskId) :
    Linear { s.maybeRetryFailedTask t now newTaskId successor fence with
      unhandled := s.unhandled.filter fun t => t.id ≠ taskId } := by
  rw [maybeRetry_unhandled]
  obtain ⟨hmem, -, hfinished, hfirst⟩ := h.unhandled t ht
  have hless : Linear { s with unhandled := s.unhandled.filter fun t => t.id ≠ taskId } :=
    ⟨h.sound, h.slots, h.runtime, h.first, h.root, h.retry, h.only, h.source, h.finished,
      fun u hu => h.unhandled u (mem_of_mem_filter hu), h.failing⟩
  apply hless.maybeRetryFailedTask hmem hfirst _ hfinished
  intro u hu heq
  have hne := (mem_filter.mp hu).2
  rw [decide_eq_true_iff] at hne
  exact hne (heq.trans hid)

/-! ## Other steps -/

theorem Linear.linkTaskToIssue (h : Linear s) (hfinished : taskId ∈ s.finished) (issueId : Nat) :
    Linear (s.linkTaskToIssue taskId issueId) := by
  have hover : ∀ t ∈ s.tasks, t.id = taskId → t.status.over = true := by
    intro t ht hid
    obtain ⟨t', ht', hid', hover⟩ := h.finished taskId hfinished
    rw [h.keyed.eq_of_key ht ht' (hid.trans hid'.symm)]
    exact hover
  have hsame : ∀ t ∈ s.tasks, t.status.over = false →
      t ∈ (s.linkTaskToIssue taskId issueId).tasks := by
    intro t ht hnot
    refine Rows.mem_update.mpr (.inr ⟨ht, ?_⟩)
    rw [Bool.and_eq_false_iff]
    left
    apply decide_eq_false
    intro hid
    rw [hover t ht hid] at hnot
    cases hnot
  have hcalm : Calm s.queue.db (s.linkTaskToIssue taskId issueId).queue.db := by
    refine ⟨rfl, fun hkeyed => hkeyed.update _ fun _ _ => rfl, ?_, ?_, ?_⟩
    · intro howned t' ht'
      rcases Rows.mem_update.mp ht' with ⟨t, ht, -, rfl⟩ | ⟨ht, -⟩
      · exact howned t ht
      · exact howned t' ht
    · intro agentId
      show (Rows.update s.tasks _ _).countP _ ≤ s.tasks.countP _
      unfold Rows.update
      rw [countP_map]
      apply countP_mono_left
      intro t _ hactive
      rw [Function.comp_apply] at hactive
      split at hactive <;> exact hactive
    · intro t' ht' hactive
      rcases Rows.mem_update.mp ht' with ⟨t, ht, hp, rfl⟩ | ⟨ht, -⟩
      · rw [Bool.and_eq_true, decide_eq_true_iff] at hp
        have hended := hover t ht hp.1
        rw [not_over_of_active hactive] at hended
        cases hended
      · exact ⟨t', ht, hactive, .refl t'⟩
  have hsound : Sound (s.linkTaskToIssue taskId issueId).queue := by
    apply h.sound.calm hcalm
    rintro t ⟨n, c, secs, hc, hphase⟩
    obtain ⟨ht, hqueued, -⟩ := (h.sound.holds n c hc).row t secs hphase
    exact hsame t ht (by rw [hqueued]; rfl)
  have hslots : slotsDistinct (s.linkTaskToIssue taskId issueId).tasks = true := by
    apply slots_update h.slots
    intro t ht hp hpending
    rw [Bool.and_eq_true, decide_eq_true_iff] at hp
    have hended := hover t ht hp.1
    unfold Task.pending at hpending
    cases hstatus : t.status <;> rw [hstatus] at hended hpending <;>
      first | exact absurd hended (by decide) | cases hpending
  apply h.changed hsound hslots rfl
  intro t ht
  split
  · rename_i hp
    rw [Bool.and_eq_true, decide_eq_true_iff] at hp
    refine ⟨rfl, rfl, ?_, rfl, rfl, rfl, rfl, rfl, fun _ => ⟨rfl, rfl⟩, ?_⟩
    · intro hnot
      exact absurd (hp.1 ▸ hfinished) hnot
    · intro hu
      exact absurd (hp.1 ▸ hfinished) (h.unhandled t hu).2.2.1
  · exact (Kept.refl t).lives fun hu => by rw [(h.unhandled t hu).2.1]; rfl

theorem Linear.manualRetry (h : Linear s) {sourceTaskId : Nat} (maxAttempts : Int) :
    Linear (s.manualRetry now fence newTaskId sourceTaskId maxAttempts) := by
  unfold State.manualRetry
  dsimp only
  split
  · exact h
  · cases transferPendingSourceContextToRetry s.sourceContexts (s.columns sourceTaskId).context sourceTaskId
        newTaskId with
    | unneeded => exact h
    | lost => exact h
    | moved sourceContexts =>
      have hcreated : Linear (s.create now fence
          (.createManualQuickCreateRetryTask newTaskId sourceTaskId)
          ⟨1, maxAttempts, none, (s.columns sourceTaskId).context⟩) :=
        h.create rfl (fun t ht => (manual_row ht).1) fun t ht _ => (manual_row ht).2
      exact ⟨hcreated.sound, hcreated.slots, hcreated.runtime, hcreated.first, hcreated.root, hcreated.retry,
        hcreated.only, hcreated.source, hcreated.finished, hcreated.unhandled, hcreated.failing⟩

theorem Linear.readParent (h : Linear s) {n : Nat} {failureReason : String} :
    Linear (s.setFailing n (some ⟨taskId, failureReason, s.readParent taskId failureReason now⟩)) := by
  refine ⟨h.sound, h.slots, h.runtime, h.first, h.root, h.retry, h.only, h.source, h.finished, h.unhandled, ?_⟩
  intro m call retry hcall hretry
  change update s.failing n _ m = some call at hcall
  rw [update_apply] at hcall
  split at hcall
  · obtain rfl := Option.some.inj hcall
    obtain ⟨parent, hparent, hread⟩ := Option.bind_eq_some_iff.mp hretry
    have hid := find?_some hparent
    rw [decide_eq_true_iff] at hid
    dsimp only at hread
    split at hread
    · rename_i heligible
      obtain rfl := Option.some.inj hread
      subst hid
      exact ⟨parent, mem_of_find?_eq_some hparent, rfl, eligible_of_retryEligible heligible, rfl⟩
    · cases hread
  · exact h.failing m call retry hcall hretry

theorem Linear.endFailing (h : Linear s) (n : Nat) : Linear (s.setFailing n none) := by
  refine ⟨h.sound, h.slots, h.runtime, h.first, h.root, h.retry, h.only, h.source, h.finished, h.unhandled, ?_⟩
  intro m call retry hcall
  change update s.failing n none m = some call at hcall
  rw [update_apply] at hcall
  split at hcall
  · cases hcall
  · exact h.failing m call retry hcall

theorem Linear.start : Linear State.start := by
  refine ⟨Sound.start, rfl, ?_, ?_, ?_, ?_, ?_, ?_, ?_, ?_, ?_⟩
  all_goals intro x hx
  all_goals first | exact absurd hx not_mem_nil | skip
  intro retry hcall
  cases hcall

/-! ## Runs -/

variable {c : Config State Event Unit}

theorem Linear.step {event : Event} (h : Linear c.state) (hallowed : Allowed c event) :
    Linear (advance State.step c event).state := by
  show Linear (c.state.step event).2
  cases event with
  | createTask now fence e maxAttempts chatInputTaskId context =>
    exact h.create rfl (fun t ht => root_row hallowed.1 ht) fun t ht hsource =>
      quickCreate_row (hallowed.2 hsource) ht
  | manualRetry now fence newTaskId sourceTaskId maxAttempts => exact h.manualRetry maxAttempts
  | queue e =>
    obtain ⟨hunlocked, he⟩ := hallowed
    refine h.queue hunlocked ?_
    cases e <;> first | rfl | cases he
  | beginFailTask n taskId failureReason now => exact h.readParent
  | failTask n now newTaskId successor fence =>
    simp only [State.step]
    cases hcall : c.state.failing n with
    | none => exact h
    | some call =>
      dsimp only
      have hended := h.endFailing n
      have hwant : ∀ retry, call.retry = some retry → Wanted (c.state.setFailing n none) call retry :=
        fun retry hretry => h.failing n call retry hcall hretry
      rcases hended.failTask hwant (hallowed.2 call hcall) hallowed.1 successor fence with ⟨hnone, -⟩ | ⟨s', hs', hlinear, -⟩
      · rw [hnone]
        exact hended
      · rw [hs']
        exact hlinear
  | handleFailedTask taskId now newTaskId successor fence =>
    simp only [State.step]
    cases hfind : c.state.unhandled.find? fun t => t.id = taskId with
    | none => exact h
    | some t =>
      have hid := find?_some hfind
      rw [decide_eq_true_iff] at hid
      exact h.handle (mem_of_find?_eq_some hfind) hid
  | linkTaskToIssue taskId issueId => exact h.linkTaskToIssue hallowed issueId
  | saveSourceContext id context =>
    exact ⟨h.sound, h.slots, h.runtime, h.first, h.root, h.retry, h.only, h.source, h.finished,
      h.unhandled, h.failing⟩

theorem linear (h : Reach State.step Allowed (start State.start) c) :
    Linear c.state :=
  h.invariant (I := fun c => Linear c.state) (fun _ _ hallowed hd => hd.step hallowed) .start

/-! ## Chains -/

/-- From a task over its parents to the root, which is no automatic retry. -/
inductive Chain (tasks : List Task) (root : Task) : List Task → Prop
  | root : root ∈ tasks → root.retryOfTaskId = none → Chain tasks root [root]
  | retry {t parent : Task} {rest : List Task} : Chain tasks root (parent :: rest) → t ∈ tasks →
      t.retryOfTaskId = some parent.id → Chain tasks root (t :: parent :: rest)

/-- The head of a chain is in the table, its attempt is the length of the chain,
and it has the ceiling of the chain. -/
theorem Linear.chain (h : Linear s) {root : Task} {chain : List Task} (hchain : Chain s.tasks root chain) :
    ∃ t ∈ s.tasks, chain.head? = some t ∧ (s.columns t.id).attempt = chain.length ∧
      (s.columns t.id).maxAttempts ≤ max (s.columns root.id).maxAttempts 3 ∧
      (chain.length : Int) ≤ max (s.columns root.id).maxAttempts 3 := by
  induction hchain with
  | root hroot hnone =>
    have hattempt := h.root root hroot hnone
    refine ⟨root, hroot, rfl, hattempt, le_max_left _ _, ?_⟩
    show (1 : Int) ≤ _
    omega
  | @retry t parent rest _ ht hretry ih =>
    obtain ⟨parent', hparent', hhead, hattempt, hmax, -⟩ := ih
    obtain rfl := Option.some.inj hhead
    obtain ⟨old, hold, hid, hchild⟩ := h.retry t ht parent.id hretry
    have heq := h.keyed.eq_of_key hold hparent' hid
    subst heq
    obtain ⟨reason, -, heligible, hceiling⟩ := hchild.eligible
    have hbound := ceiling_le reason (s.columns old.id).maxAttempts
    have hbudget := heligible.budget
    have hnext := hchild.attempt
    have hlength : ((t :: old :: rest).length : Int) = ((old :: rest).length : Int) + 1 := by
      rw [length_cons]
      exact Int.natCast_succ _
    refine ⟨t, ht, rfl, ?_, ?_, ?_⟩ <;> omega

/-- A task has at most one automatic retry, which agrees with it and is made
within its budget; a chain is no longer than the larger of its root's
`max_attempts` and three; and a `FailTask` of an active task stores the failure,
whatever becomes of the retry. -/
theorem retries_bounded {c : Config State Event Unit}
    (h : Reach State.step Allowed (start State.start) c) :
    (∀ t ∈ c.state.tasks, ∀ t' ∈ c.state.tasks, ∀ p, t.retryOfTaskId = some p →
      t'.retryOfTaskId = some p → t = t') ∧
    (∀ t ∈ c.state.tasks, ∀ p, t.retryOfTaskId = some p → ∃ parent ∈ c.state.tasks, parent.id = p ∧
      IsRetry c.state.columns parent t ∧ 1 < (c.state.columns parent.id).maxAttempts) ∧
    (∀ root chain, Chain c.state.tasks root chain →
      (chain.length : Int) ≤ max (c.state.columns root.id).maxAttempts 3) ∧
    ∀ n call now newTaskId successor fence, c.state.failing n = some call →
      Allowed c (.failTask n now newTaskId successor fence) →
      (∃ t ∈ c.state.tasks, t.id = call.taskId ∧ t.status.active = true) →
      ∃ t ∈ (advance State.step c (.failTask n now newTaskId successor fence)).state.tasks,
        FailedAs call t := by
  have hc := linear h
  refine ⟨hc.only, ?_, ?_, ?_⟩
  · intro t ht p hp
    obtain ⟨parent, hparent, hid, hretry⟩ := hc.retry t ht p hp
    obtain ⟨reason, -, heligible, -⟩ := hretry.eligible
    exact ⟨parent, hparent, hid, hretry, one_lt_of_ceiling (hc.first parent hparent) heligible.budget⟩
  · intro root chain hchain
    obtain ⟨_, _, _, _, _, hlength⟩ := hc.chain hchain
    exact hlength
  · intro n call now newTaskId successor fence hcall hallowed hactive
    obtain ⟨t, ht, hid, hactive⟩ := hactive
    have hwant : ∀ retry, call.retry = some retry → Wanted (c.state.setFailing n none) call retry :=
      fun retry hretry => hc.failing n call retry hcall hretry
    show ∃ t ∈ (c.state.step (.failTask n now newTaskId successor fence)).2.tasks, FailedAs call t
    simp only [State.step]
    rw [hcall]
    dsimp only
    rcases (hc.endFailing n).failTask hwant (hallowed.2 call hcall) hallowed.1 successor fence with ⟨-, hnone⟩ | ⟨s', hs', -, hfailed⟩
    · rw [hnone t ht hid] at hactive
      cases hactive
    · rw [hs']
      exact hfailed

/-- A task that has started fails while its runtime is offline. -/
def offlineRun : List Event :=
  [.queue (.saveRuntime 3 ⟨true, none, true, some 0, 0⟩), .queue (.saveAgent 1 ⟨some 3, none, 1⟩),
    .createTask 0 true (.createAgentTask 7 1 (some 3) 5 0 none []) 2 none .other,
    .queue (.claim 0 1 (some 3) 10), .queue (.countRunningTasks 0),
    .queue (.claimAgentTask 0 60 30 []), .queue (.commitClaim 0), .queue (.run 20 (.startAgentTask 7)),
    .beginFailTask 0 7 "runtime_offline" 40, .failTask 0 41 8 false true]

theorem unlocked_of_none {now : Nat} (h : ∀ n, s.queue.claims n = none) :
    s.unlocked (.run now st) := by
  rintro t ⟨n, c, secs, hc, -⟩
  rw [h n] at hc
  cases hc

theorem retries_bounded_offline :
    (∃ t ∈ (exec State.step (start State.start) offlineRun).state.tasks, t.retryOfTaskId = some 7 ∧
      t.status = .deferred) ∧
    ∀ root chain, Chain (exec State.step (start State.start) offlineRun).state.tasks root chain →
      (chain.length : Int) ≤
        max ((exec State.step (start State.start) offlineRun).state.columns root.id).maxAttempts 3 := by
  have hallowed : AllAllowed State.step Allowed (start State.start) offlineRun := by
    refine ⟨⟨trivial, trivial⟩, ⟨⟨?_, ?_⟩, trivial⟩, ⟨rfl, fun h => absurd h (by decide)⟩, ⟨⟨rfl, ?_⟩, trivial⟩,
      ⟨trivial, trivial⟩, ⟨trivial, trivial⟩, ⟨trivial, trivial⟩, ⟨unlocked_of_none ?_, trivial⟩, trivial,
      ⟨by decide, ?_⟩, trivial⟩
    · rintro ⟨n, c, hc, -⟩
      cases hc
    · intro old hold
      cases hold
    · rintro ⟨n, c, hc, -⟩
      cases hc
    · intro n
      change update (update (update (update (fun _ => none) 0 _) 0 _)
        0 _) 0 none n = none
      by_cases hn : n = 0 <;> simp [hn]
    · intro call _
      apply unlocked_of_none
      intro n
      change update (update (update (update (fun _ => none) 0 _) 0 _)
        0 _) 0 none n = none
      by_cases hn : n = 0 <;> simp [hn]
  exact ⟨by decide, (retries_bounded (reach_exec hallowed)).2.2.1⟩

end ClawMessenger.Ports.RetryChains
