import ClawMessenger.Ports.RetryChainsRows

/-!
# What every state of the retries keeps

`FailTask` makes a child of a row that was active, which has no retry yet, and a
row that a bulk failure returned is handled once; what a task and its retry
agree on when it is made they agree on for ever (`IsRetry`).  A step that
changes rows in place keeps the invariant (`Linear.moved`), as does a row that
fits (`Linear.insert`), and the transaction of a failure commits whatever
becomes of its child (`Linear.retryFailed`).
-/

namespace ClawMessenger.Ports.RetryChains

open ClawMessenger.Verified ClawMessenger.Ports.TaskQueue Machine List
open Function (update update_of_ne update_self)

variable {s : State} {db : Db} {t t' parent child : Task} {reason : String} {columns : Nat → Columns}

/-! ## The invariant -/

/-- A task may be retried for the reason. -/
structure Eligible (reason : String) (t : Task) (columns : Columns) : Prop where
  retryable : reason ∈ retryableReasons
  budget : columns.attempt < retryAttemptCeiling reason columns.maxAttempts
  noRun : t.autopilotRunId = none

/-- `child` is an automatic retry of `parent`. -/
structure IsRetry (columns : Nat → Columns) (parent child : Task) : Prop where
  failed : parent.status = .failed
  eligible : ∃ reason, parent.failureReason = some reason ∧ Eligible reason parent (columns parent.id) ∧
    (columns child.id).maxAttempts = retryAttemptCeiling reason (columns parent.id).maxAttempts
  attempt : (columns child.id).attempt = (columns parent.id).attempt + 1
  chatInputTaskId : (columns child.id).chatInputTaskId = (columns parent.id).chatInputTaskId
  triggerCommentId : child.triggerCommentId = parent.triggerCommentId
  coalescedCommentIds : child.coalescedCommentIds = parent.coalescedCommentIds

/-- A `FailTask` has read a row that may be retried. -/
def Wanted (s : State) (call : Failing) (retry : Retry) : Prop :=
  ∃ t ∈ s.tasks, t.id = call.taskId ∧ Eligible call.failureReason t (s.columns t.id) ∧
    retry.maxAttempts = retryAttemptCeiling call.failureReason (s.columns t.id).maxAttempts

structure Linear (s : State) : Prop where
  sound : TaskQueue.Sound s.queue
  slots : slotsDistinct s.tasks = true
  runtime : ∀ t ∈ s.tasks, t.runtimeId.isSome = true
  first : ∀ t ∈ s.tasks, 1 ≤ (s.columns t.id).attempt
  root : ∀ t ∈ s.tasks, t.retryOfTaskId = none → (s.columns t.id).attempt = 1
  retry : ∀ t ∈ s.tasks, ∀ p, t.retryOfTaskId = some p →
    ∃ parent ∈ s.tasks, parent.id = p ∧ IsRetry s.columns parent t
  only : ∀ t ∈ s.tasks, ∀ t' ∈ s.tasks, ∀ p, t.retryOfTaskId = some p → t'.retryOfTaskId = some p → t = t'
  /-- only a finished quick-create has been linked to an issue -/
  source : ∀ t ∈ s.tasks, (s.columns t.id).context.source.isSome = true →
    (t.issueId = none ∨ t.id ∈ s.finished) ∧ t.chatSessionId = none ∧ t.autopilotRunId = none
  finished : ∀ id ∈ s.finished, ∃ t ∈ s.tasks, t.id = id ∧ t.status.over = true
  unhandled : ∀ u ∈ s.unhandled, u ∈ s.tasks ∧ u.status = .failed ∧ u.id ∉ s.finished ∧
    ∀ t ∈ s.tasks, t.retryOfTaskId ≠ some u.id
  failing : ∀ n call retry, s.failing n = some call → call.retry = some retry → Wanted s call retry

theorem Linear.keyed (h : Linear s) : Rows.Keyed Task.id s.tasks := h.sound.keyed

section

variable (h : Linear s) (ht : t ∈ s.tasks) (hover : t.status.over = false)
include h ht hover

/-- A task that is not over has no automatic retry yet. -/
theorem Linear.no_retry :
    ∀ t' ∈ s.tasks, t'.retryOfTaskId ≠ some t.id := by
  intro t' ht' hretry
  obtain ⟨parent, hparent, hid, hchild⟩ := h.retry t' ht' t.id hretry
  have heq := h.keyed.eq_of_key hparent ht hid
  subst heq
  rw [hchild.failed] at hover
  cases hover

/-- Nor has it been handed over, or finished. -/
theorem Linear.not_unhandled :
    ∀ u ∈ s.unhandled, u.id ≠ t.id := by
  intro u hu hid
  obtain ⟨hmem, hfailed, -⟩ := h.unhandled u hu
  have heq := h.keyed.eq_of_key hmem ht hid
  subst heq
  rw [hfailed] at hover
  cases hover

theorem Linear.not_finished :
    t.id ∉ s.finished := by
  intro hfinished
  obtain ⟨t', ht', hid, hover'⟩ := h.finished t.id hfinished
  rw [h.keyed.eq_of_key ht' ht hid, hover] at hover'
  cases hover'

end

theorem not_over_of_active {status : Status} (h : status.active = true) : status.over = false := by
  unfold Status.over Status.unfinished
  rw [h]
  rfl

theorem one_lt_of_ceiling {maxAttempts attempt : Int} (hattempt : 1 ≤ attempt)
    (h : attempt < retryAttemptCeiling reason maxAttempts) : 1 < maxAttempts := by
  unfold retryAttemptCeiling at h
  split at h <;> omega

theorem ceiling_le (reason : String) (maxAttempts : Int) :
    retryAttemptCeiling reason maxAttempts ≤ max maxAttempts 3 := by
  unfold retryAttemptCeiling providerNetworkMaxAttempts
  split
  · exact le_max_left _ _
  · split
    · exact le_max_right _ _
    · exact le_max_left _ _

theorem eligible_of_retryEligible {columns : Columns} (h : retryEligible reason t columns = true) :
    Eligible reason t columns := by
  unfold retryEligible at h
  rw [Bool.and_eq_true, Bool.and_eq_true, Bool.and_eq_true, contains_iff_mem, decide_eq_true_iff,
    Bool.not_eq_true', Option.isSome_eq_false_iff, Option.isNone_iff_eq_none] at h
  exact ⟨h.1.1.1, h.1.1.2, h.1.2⟩

/-- The empty text is no reason to retry. -/
theorem reason_ne_empty (h : reason ∈ retryableReasons) : reason ≠ "" := by
  rintro rfl
  revert h
  decide

/-! ## Rows that are changed in place -/

/-- What a step that changes rows in place leaves of a row; only a finished one
may get an issue. -/
structure Lives (s : State) (t t' : Task) : Prop where
  id : t'.id = t.id
  runtimeId : t'.runtimeId = t.runtimeId
  issueId : t.id ∉ s.finished → t'.issueId = t.issueId
  chatSessionId : t'.chatSessionId = t.chatSessionId
  autopilotRunId : t'.autopilotRunId = t.autopilotRunId
  retryOfTaskId : t'.retryOfTaskId = t.retryOfTaskId
  triggerCommentId : t'.triggerCommentId = t.triggerCommentId
  coalescedCommentIds : t'.coalescedCommentIds = t.coalescedCommentIds
  ended : t.status.over = true → t'.status = t.status ∧ t'.failureReason = t.failureReason
  unhandled : t ∈ s.unhandled → t' = t

theorem Kept.lives (h : Kept t t') (hunhandled : t ∈ s.unhandled → t.status.over = true) : Lives s t t' :=
  ⟨h.same.id, h.same.runtimeId, fun _ => h.same.issueId, h.same.chatSessionId, h.same.autopilotRunId,
    h.retryOfTaskId, h.triggerCommentId, h.coalescedCommentIds,
    fun hover => by rw [h.ended hover]; exact ⟨rfl, rfl⟩, fun hu => h.ended (hunhandled hu)⟩

theorem IsRetry.moved (h : IsRetry s.columns parent child) {parent' child' : Task}
    (hparent : Lives s parent parent') (hchild : Lives s child child') :
    IsRetry s.columns parent' child' := by
  obtain ⟨hfailed, ⟨reason, hreason, heligible, hmax⟩, hattempt, hinput, htrigger, hcoalesced⟩ := h
  obtain ⟨hstatus, hsame⟩ := hparent.ended (by rw [hfailed]; rfl)
  refine ⟨hstatus.trans hfailed, ⟨reason, hsame.trans hreason, ?_, ?_⟩, ?_, ?_, ?_, ?_⟩
  · rw [hparent.id]
    exact ⟨heligible.retryable, heligible.budget, hparent.autopilotRunId.trans heligible.noRun⟩
  · rw [hparent.id, hchild.id]
    exact hmax
  · rw [hparent.id, hchild.id]
    exact hattempt
  · rw [hparent.id, hchild.id]
    exact hinput
  · rw [hparent.triggerCommentId, hchild.triggerCommentId]
    exact htrigger
  · rw [hparent.coalescedCommentIds, hchild.coalescedCommentIds]
    exact hcoalesced

section

variable (h : Linear s) {queue : TaskQueue.State} (hsound : TaskQueue.Sound queue)
  (hslots : slotsDistinct queue.db.tasks = true)
include h hsound hslots

/-- A step of the queue that changes rows in place. -/
theorem Linear.changed {f : Task → Task} (htasks : queue.db.tasks = s.tasks.map f)
    (hlives : ∀ t ∈ s.tasks, Lives s t (f t)) : Linear { s with queue := queue } := by
  have hback : ∀ t' ∈ queue.db.tasks, ∃ t ∈ s.tasks, t' = f t := by
    intro t' ht'
    rw [htasks] at ht'
    obtain ⟨t, ht, rfl⟩ := mem_map.mp ht'
    exact ⟨t, ht, rfl⟩
  have hmem : ∀ t ∈ s.tasks, f t ∈ queue.db.tasks := by
    intro t ht
    rw [htasks]
    exact mem_map_of_mem ht
  refine ⟨hsound, hslots, ?_, ?_, ?_, ?_, ?_, ?_, ?_, ?_, ?_⟩
  · intro t' ht'
    obtain ⟨t, ht, rfl⟩ := hback t' ht'
    rw [(hlives t ht).runtimeId]
    exact h.runtime t ht
  · intro t' ht'
    obtain ⟨t, ht, rfl⟩ := hback t' ht'
    rw [(hlives t ht).id]
    exact h.first t ht
  · intro t' ht' hnone
    obtain ⟨t, ht, rfl⟩ := hback t' ht'
    rw [(hlives t ht).retryOfTaskId] at hnone
    rw [(hlives t ht).id]
    exact h.root t ht hnone
  · intro t' ht' p hp
    obtain ⟨t, ht, rfl⟩ := hback t' ht'
    rw [(hlives t ht).retryOfTaskId] at hp
    obtain ⟨parent, hparent, hid, hretry⟩ := h.retry t ht p hp
    exact ⟨f parent, hmem parent hparent, (hlives parent hparent).id.trans hid,
      hretry.moved (hlives parent hparent) (hlives t ht)⟩
  · intro t' ht' u' hu' p hp hp'
    obtain ⟨t, ht, rfl⟩ := hback t' ht'
    obtain ⟨u, hu, rfl⟩ := hback u' hu'
    rw [(hlives t ht).retryOfTaskId] at hp
    rw [(hlives u hu).retryOfTaskId] at hp'
    rw [h.only t ht u hu p hp hp']
  · intro t' ht' hsource
    obtain ⟨t, ht, rfl⟩ := hback t' ht'
    rw [(hlives t ht).id] at hsource
    obtain ⟨hissue, hchat, hrun⟩ := h.source t ht hsource
    refine ⟨?_, (hlives t ht).chatSessionId.trans hchat, (hlives t ht).autopilotRunId.trans hrun⟩
    rw [(hlives t ht).id]
    by_cases hfinished : t.id ∈ s.finished
    · exact .inr hfinished
    · exact .inl (((hlives t ht).issueId hfinished).trans (hissue.resolve_right hfinished))
  · intro id hid
    obtain ⟨t, ht, heq, hover⟩ := h.finished id hid
    refine ⟨f t, hmem t ht, (hlives t ht).id.trans heq, ?_⟩
    rw [((hlives t ht).ended hover).1]
    exact hover
  · intro u hu
    obtain ⟨ht, hfailed, hfinished, hnone⟩ := h.unhandled u hu
    refine ⟨?_, hfailed, hfinished, ?_⟩
    · have hstill := hmem u ht
      rw [(hlives u ht).unhandled hu] at hstill
      exact hstill
    · intro t' ht'
      obtain ⟨t, ht, rfl⟩ := hback t' ht'
      rw [(hlives t ht).retryOfTaskId]
      exact hnone t ht
  · intro n call retry hcall hwant
    obtain ⟨t, ht, hid, heligible, hmax⟩ := h.failing n call retry hcall hwant
    refine ⟨f t, hmem t ht, (hlives t ht).id.trans hid, ?_, ?_⟩
    · show Eligible call.failureReason (f t) (s.columns (f t).id)
      rw [(hlives t ht).id]
      exact ⟨heligible.retryable, heligible.budget, (hlives t ht).autopilotRunId.trans heligible.noRun⟩
    · show retry.maxAttempts = retryAttemptCeiling call.failureReason (s.columns (f t).id).maxAttempts
      rw [(hlives t ht).id]
      exact hmax

theorem Linear.moved (hmoved : Moved s.tasks queue.db.tasks) :
    Linear { s with queue := queue } := by
  obtain ⟨f, htasks, hkept⟩ := hmoved
  apply h.changed hsound hslots htasks
  intro t ht
  apply (hkept t ht).lives
  intro hu
  rw [(h.unhandled t hu).2.1]
  rfl

end

/-! ## Rows that are added -/

theorem IsRetry.congr (h : IsRetry columns parent child) {columns' : Nat → Columns}
    (hparent : columns' parent.id = columns parent.id) (hchild : columns' child.id = columns child.id) :
    IsRetry columns' parent child := by
  obtain ⟨hfailed, heligible, hattempt, hinput, htrigger, hcoalesced⟩ := h
  refine ⟨hfailed, ?_, ?_, ?_, htrigger, hcoalesced⟩
  all_goals rw [hparent, hchild]
  · exact heligible
  · exact hattempt
  · exact hinput

/-- Columns under an id that no row has. -/
theorem Linear.setColumns (h : Linear s) {columns : Nat → Columns}
    (hsame : ∀ t ∈ s.tasks, columns t.id = s.columns t.id) : Linear { s with columns := columns } := by
  refine ⟨h.sound, h.slots, h.runtime, ?_, ?_, ?_, h.only, ?_, h.finished, h.unhandled, ?_⟩
  · intro t ht
    show 1 ≤ (columns t.id).attempt
    rw [hsame t ht]
    exact h.first t ht
  · intro t ht hnone
    show (columns t.id).attempt = 1
    rw [hsame t ht]
    exact h.root t ht hnone
  · intro t ht p hp
    obtain ⟨parent, hparent, hid, hretry⟩ := h.retry t ht p hp
    exact ⟨parent, hparent, hid, hretry.congr (hsame parent hparent) (hsame t ht)⟩
  · intro t ht hsource
    change (columns t.id).context.source.isSome = true at hsource
    rw [hsame t ht] at hsource
    exact h.source t ht hsource
  · intro n call retry hcall hwant
    obtain ⟨t, ht, hid, heligible, hmax⟩ := h.failing n call retry hcall hwant
    refine ⟨t, ht, hid, ?_, ?_⟩
    · show Eligible call.failureReason t (columns t.id)
      rw [hsame t ht]
      exact heligible
    · show retry.maxAttempts = retryAttemptCeiling call.failureReason (columns t.id).maxAttempts
      rw [hsame t ht]
      exact hmax

/-- What a new row has to be. -/
structure Fits (s : State) (t : Task) : Prop where
  fresh : ∀ t' ∈ s.tasks, t'.id ≠ t.id
  runtime : t.runtimeId.isSome = true
  first : 1 ≤ (s.columns t.id).attempt
  root : t.retryOfTaskId = none → (s.columns t.id).attempt = 1
  retry : ∀ p, t.retryOfTaskId = some p → ∃ parent ∈ s.tasks, parent.id = p ∧
    IsRetry s.columns parent t ∧ (∀ t' ∈ s.tasks, t'.retryOfTaskId ≠ some p) ∧ ∀ u ∈ s.unhandled, u.id ≠ p
  source : (s.columns t.id).context.source.isSome = true → Unlinked t

/-- A row is stored whose columns stand there already. -/
theorem Linear.insert (h : Linear s) (hfits : Fits s t)
    (hsound : Sound { s.queue with db := { s.queue.db with tasks := s.tasks ++ [t] } })
    (hslots : slotsDistinct (s.tasks ++ [t]) = true) :
    Linear (s.withDb { s.queue.db with tasks := s.tasks ++ [t] }) := by
  have hcases : ∀ t' ∈ s.tasks ++ [t], t' ∈ s.tasks ∨ t' = t := by
    intro t' ht'
    rcases mem_append.mp ht' with hold | hnew
    · exact .inl hold
    · exact .inr (mem_singleton.mp hnew)
  have hold : ∀ t' ∈ s.tasks, t' ∈ s.tasks ++ [t] := fun _ ht' => mem_append_left _ ht'
  refine ⟨hsound, hslots, ?_, ?_, ?_, ?_, ?_, ?_, ?_, ?_, ?_⟩
  · intro t' ht'
    rcases hcases t' ht' with ht' | rfl
    · exact h.runtime t' ht'
    · exact hfits.runtime
  · intro t' ht'
    rcases hcases t' ht' with ht' | rfl
    · exact h.first t' ht'
    · exact hfits.first
  · intro t' ht'
    rcases hcases t' ht' with ht' | rfl
    · exact h.root t' ht'
    · exact hfits.root
  · intro t' ht' p hp
    rcases hcases t' ht' with ht' | rfl
    · obtain ⟨parent, hparent, hrest⟩ := h.retry t' ht' p hp
      exact ⟨parent, hold parent hparent, hrest⟩
    · obtain ⟨parent, hparent, hid, hretry, -⟩ := hfits.retry p hp
      exact ⟨parent, hold parent hparent, hid, hretry⟩
  · intro u hu v hv p hp hp'
    rcases hcases u hu with holdu | rfl
    · rcases hcases v hv with holdv | rfl
      · exact h.only u holdu v holdv p hp hp'
      · obtain ⟨parent, -, -, -, hnone, -⟩ := hfits.retry p hp'
        exact absurd hp (hnone u holdu)
    · rcases hcases v hv with holdv | rfl
      · obtain ⟨parent, -, -, -, hnone, -⟩ := hfits.retry p hp
        exact absurd hp' (hnone v holdv)
      · rfl
  · intro t' ht' hsource
    rcases hcases t' ht' with ht' | rfl
    · exact h.source t' ht' hsource
    · exact ⟨.inl (hfits.source hsource).1, (hfits.source hsource).2⟩
  · intro id hid
    obtain ⟨t', ht', hrest⟩ := h.finished id hid
    exact ⟨t', hold t' ht', hrest⟩
  · intro u hu
    obtain ⟨ht', hfailed, hfinished, hnone⟩ := h.unhandled u hu
    refine ⟨hold u ht', hfailed, hfinished, ?_⟩
    intro t' ht' hp
    rcases hcases t' ht' with ht' | rfl
    · exact hnone t' ht' hp
    · obtain ⟨parent, -, -, -, -, hhandled⟩ := hfits.retry u.id hp
      exact hhandled u hu rfl
  · intro n call retry hcall hwant
    obtain ⟨t', ht', hrest⟩ := h.failing n call retry hcall hwant
    exact ⟨t', hold t' ht', hrest⟩

section Create

variable {now : Nat} {fence : Bool}

theorem Linear.enqueued (h : Linear s) (now : Nat) (fence : Bool) (e : Enqueue) :
    TaskQueue.Sound { s.queue with db := s.queue.db.enqueue now fence e } := by
  have hallowed : TaskQueue.Allowed ⟨[], s.queue⟩ (.enqueue now fence e) := trivial
  exact TaskQueue.Sound.step h.sound hallowed

/-- A task that is no retry. -/
theorem Linear.create (h : Linear s) {e : Enqueue} {columns : Columns} (hattempt : columns.attempt = 1)
    (hrow : ∀ t, e.row s.queue.db now = some t → t.retryOfTaskId = none)
    (hsource : ∀ t, e.row s.queue.db now = some t → columns.context.source.isSome = true → Unlinked t) :
    Linear (s.create now fence e columns) := by
  unfold State.create
  cases ht : e.row s.queue.db now with
  | none => exact h
  | some t =>
    dsimp only
    by_cases hused : (s.tasks.any fun t' => t'.id = t.id) = true
    · rw [if_pos hused]
      exact h
    · rw [if_neg hused]
      rw [any_eq_true] at hused
      have hfresh : ∀ t' ∈ s.tasks, t'.id ≠ t.id := fun t' ht' heq =>
        hused ⟨t', ht', decide_eq_true heq⟩
      have hset : Linear { s with columns := update s.columns t.id columns } :=
        h.setColumns fun t' ht' => update_of_ne (hfresh t' ht') _ _
      rcases enqueue_stored ht with hsame | hstored
      · rw [hsame]
        exact hset
      · have hsound := h.enqueued now fence e
        rw [hstored.enqueue] at hsound ⊢
        refine hset.insert ⟨hfresh, hstored.runtime, ?_, ?_, ?_, ?_⟩ hsound hstored.slots
        · show 1 ≤ (update s.columns t.id columns t.id).attempt
          rw [update_self, hattempt]
        · intro _
          show (update s.columns t.id columns t.id).attempt = 1
          rw [update_self, hattempt]
        · intro p hp
          rw [hrow t ht] at hp
          cases hp
        · intro hcontext
          change (update s.columns t.id columns t.id).context.source.isSome = true at hcontext
          rw [update_self] at hcontext
          exact hsource t ht hcontext

/-- A failed task whose retry may be stored. -/
structure Ready (s : State) (parent : Task) (reason : String) : Prop where
  mem : parent ∈ s.tasks
  failed : parent.status = .failed
  because : parent.failureReason = some reason
  eligible : Eligible reason parent (s.columns parent.id)
  first : ∀ t ∈ s.tasks, t.retryOfTaskId ≠ some parent.id
  alone : ∀ u ∈ s.unhandled, u.id ≠ parent.id
  source : (s.columns parent.id).context.source.isSome = true → Unlinked parent

variable {newTaskId : Nat} {fireAt : Option Nat}

theorem Linear.addChild (h : Linear s) (hready : Ready s parent reason)
    (hcreated : createRetryTask s.queue.db now newTaskId parent.id fireAt fence = .row child) :
    Linear (s.addChild parent.id child (retryAttemptCeiling reason (s.columns parent.id).maxAttempts)) := by
  have hstored := createRetryTask_stored hcreated
  obtain ⟨-, hretry, -, hissue, hchat, hrun, htrigger, hcoalesced, -⟩ :=
    retry_row h.keyed hready.mem hstored.row
  have hne : ∀ t ∈ s.tasks, t.id ≠ child.id := hstored.fresh
  generalize hcolumns : (s.columns parent.id).child
    (retryAttemptCeiling reason (s.columns parent.id).maxAttempts) = columns
  have hset : Linear { s with columns := update s.columns child.id columns } :=
    h.setColumns fun t ht => update_of_ne (hne t ht) _ _
  have hself : (update s.columns child.id columns) child.id = columns := update_self _ _ _
  have hparent : (update s.columns child.id columns) parent.id = s.columns parent.id :=
    update_of_ne (hne parent hready.mem) _ _
  have hsound := h.enqueued now fence (.createRetryTask newTaskId parent.id fireAt)
  rw [hstored.enqueue] at hsound
  have hattempt : columns.attempt = (s.columns parent.id).attempt + 1 := by rw [← hcolumns]; rfl
  have hlinear := hset.insert (t := child) ⟨hne, hstored.runtime, ?_, ?_, ?_, ?_⟩ hsound hstored.slots
  · unfold State.addChild
    rw [hcolumns]
    exact hlinear
  · show 1 ≤ ((update s.columns child.id columns) child.id).attempt
    rw [hself, hattempt]
    have hfirst := h.first parent hready.mem
    omega
  · intro hnone
    rw [hretry] at hnone
    cases hnone
  · intro p hp
    rw [hretry] at hp
    obtain rfl := Option.some.inj hp
    refine ⟨parent, hready.mem, rfl, ?_, hready.first, hready.alone⟩
    refine ⟨hready.failed, ⟨reason, hready.because, ?_, ?_⟩, ?_, ?_, htrigger, hcoalesced⟩
    · show Eligible reason parent ((update s.columns child.id columns) parent.id)
      rw [hparent]
      exact hready.eligible
    all_goals
      dsimp only
      rw [hself, hparent, ← hcolumns]
      rfl
  · intro hcontext
    change ((update s.columns child.id columns) child.id).context.source.isSome = true at hcontext
    rw [hself, ← hcolumns] at hcontext
    obtain ⟨hnoIssue, hnoChat, hnoRun⟩ := hready.source hcontext
    exact ⟨hissue.trans hnoIssue, hchat.trans hnoChat, hrun.trans hnoRun⟩

/-! ## The transaction of a failure -/

/-- The child that is deleted in its own transaction leaves nothing. -/
theorem delete_child (hfresh : ∀ t ∈ db.tasks, t.id ≠ child.id)
    (hchild : unstartedQuickCreate child.id child = true) :
    (db.tasks ++ [child]).countP (unstartedQuickCreate child.id) = 1 ∧
      ((db.tasks ++ [child]).filter fun t => !unstartedQuickCreate child.id t) = db.tasks := by
  have hold : ∀ t ∈ db.tasks, unstartedQuickCreate child.id t = false := by
    intro t ht
    unfold unstartedQuickCreate
    rw [decide_eq_false (hfresh t ht)]
    rfl
  constructor
  · have hzero : db.tasks.countP (unstartedQuickCreate child.id) = 0 := by
      rw [countP_eq_zero]
      intro t ht
      rw [hold t ht]
      exact Bool.false_ne_true
    rw [countP_append, hzero, countP_singleton, hchild, if_pos rfl]
  · have hkept : (db.tasks.filter fun t => !unstartedQuickCreate child.id t) = db.tasks := by
      rw [filter_eq_self]
      intro t ht
      rw [hold t ht]
      rfl
    rw [filter_append, hkept, filter_singleton, hchild]
    exact append_nil _

theorem addChild_deleted (parentId : Nat) (maxAttempts : Int) (hfresh : ∀ t ∈ s.tasks, t.id ≠ child.id)
    (hchild : unstartedQuickCreate child.id child = true) :
    let added := s.addChild parentId child maxAttempts
    added.tasks.countP (unstartedQuickCreate child.id) = 1 ∧
      added.withDb (added.queue.db.deleteUnstartedQuickCreateRetryTask child.id) =
        { s with columns := added.columns } := by
  obtain ⟨hcount, hrest⟩ := delete_child hfresh hchild
  refine ⟨hcount, ?_⟩
  have hdb : (s.addChild parentId child maxAttempts).queue.db.deleteUnstartedQuickCreateRetryTask child.id =
      s.queue.db := by
    unfold Db.deleteUnstartedQuickCreateRetryTask State.addChild State.withDb State.tasks
    rw [hrest]
  rw [hdb]
  rfl

/-- Whatever becomes of the child, the transaction commits. -/
theorem Linear.retryFailed (h : Linear s) (hready : Ready s parent reason) {retry : Retry}
    (hmax : retry.maxAttempts = retryAttemptCeiling reason (s.columns parent.id).maxAttempts)
    (hfresh : ∀ t ∈ s.tasks, t.id ≠ newTaskId) :
    ∃ s', s.retryFailed parent.id retry now newTaskId fence = some s' ∧ Linear s' ∧
      ∀ t ∈ s.tasks, t ∈ s'.tasks := by
  unfold State.retryFailed
  cases hcreated : createRetryTask s.queue.db now newTaskId parent.id retry.fireAt fence with
  | nothing => exact ⟨s, rfl, h, fun _ ht => ht⟩
  | failed =>
    exact absurd hcreated (createRetryTask_ne_failed h.keyed hready.mem (h.runtime parent hready.mem) hfresh)
  | row child =>
    have hstored := createRetryTask_stored hcreated
    have hadded := h.addChild hready hcreated
    rw [← hmax] at hadded
    have hmem : ∀ t ∈ s.tasks, t ∈ (s.addChild parent.id child retry.maxAttempts).tasks :=
      fun t ht => mem_append_left _ ht
    dsimp only
    cases htransfer : transferPendingSourceContextToRetry s.sourceContexts (s.columns parent.id).context
        parent.id child.id with
    | unneeded => exact ⟨_, rfl, hadded, hmem⟩
    | moved sourceContexts =>
      exact ⟨_, rfl, ⟨hadded.sound, hadded.slots, hadded.runtime, hadded.first, hadded.root, hadded.retry,
        hadded.only, hadded.source, hadded.finished, hadded.unhandled, hadded.failing⟩, hmem⟩
    | lost =>
      have hsource : (s.columns parent.id).context.source.isSome = true := by
        unfold transferPendingSourceContextToRetry at htransfer
        cases hcontext : (s.columns parent.id).context.source with
        | none =>
          rw [hcontext] at htransfer
          cases htransfer
        | some ids => rfl
      obtain ⟨hnoIssue, hnoChat, hnoRun⟩ := hready.source hsource
      obtain ⟨-, -, -, hissue, hchat, hrun, -, -, hstatus⟩ := retry_row h.keyed hready.mem hstored.row
      have hchild : unstartedQuickCreate child.id child = true := by
        unfold unstartedQuickCreate
        rw [hissue, hchat, hrun, hnoIssue, hnoChat, hnoRun]
        rcases hstatus with hstatus | hstatus <;> rw [hstatus] <;> simp
      obtain ⟨hcount, hdeleted⟩ := addChild_deleted parent.id retry.maxAttempts hstored.fresh hchild
      rw [if_pos hcount, hdeleted]
      exact ⟨_, rfl, h.setColumns fun t ht => update_of_ne (hstored.fresh t ht) _ _,
        fun _ ht => ht⟩

end Create

end ClawMessenger.Ports.RetryChains
