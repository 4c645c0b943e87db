import ClawMessenger.Ports.DelegatedRecovery

/-!
# What recovery of delegated failures keeps

Recovery tasks are counted by one statement and inserted by a later one, so the
count does not bound them by itself: `Current` says that what a dispatch counted is
still right when it inserts, and that an automatic retry of a recovery task makes the
check it lacks.  In every run of such steps a failed task has at most one
recovery comment, three recovery tasks and one exhaustion notice, and a dispatch
that ends without an error leaves its comment settled.

The notice is unique because all exhaustions of one failed task lock the same row:
once three recovery tasks are there, the newest of them stays the newest.
-/

namespace ClawMessenger.Ports.DelegatedRecovery

open Verified Verified.Machine List

/-! ## Recovery tasks of a failed task -/

def isRecoveryOf (failedId : Nat) (t : Task) : Bool := t.recoveryOf == some failedId

/-- The recovery tasks that were inserted for a failed task, in their order. -/
def recoveryIds (tasks : List Task) (failedId : Nat) : List Nat :=
  (tasks.filter (isRecoveryOf failedId)).map Task.id

/-- The next statement of the dispatch inserts its task. -/
def creates (σ : State) (d : Dispatch) (newTaskId : Nat) : Bool :=
  d.point == .create && !slotTaken σ.tasks d.target.issueId d.target.agentId && fresh σ.tasks newTaskId

/-- No merge of another comment has replaced the evidence of a recovery task. -/
def Stamped (σ : State) (failedId : Nat) : Prop :=
  ∀ t ∈ σ.tasks, t.recoveryOf = some failedId → t.delegatedFailure = some failedId

/-- Between the count of a dispatch and its insertion no other recovery task of the failed
task was inserted, and a retry of a recovery task finds the count below the limit.  By then
no evidence was replaced. -/
def Current (σ : State) : Action → Prop
  | .advance dispatchId newTaskId =>
    ∀ d ∈ σ.dispatches, d.id = dispatchId → creates σ d newTaskId = true →
      Stamped σ d.target.failedId ∧ countRecoveryTasks σ.tasks d.target.failedId = d.recoveryTasks
  | .retry parentId newTaskId deferred =>
    ∀ child ∈ retryChild σ.tasks parentId newTaskId deferred, ∀ failedId ∈ child.recoveryOf,
      Stamped σ failedId ∧ countRecoveryTasks σ.tasks failedId < delegatedFailureRecoveryMaxTaskAttempts
  | _ => True

instance (σ : State) (failedId : Nat) : Decidable (Stamped σ failedId) :=
  inferInstanceAs (Decidable (∀ t ∈ σ.tasks, _ → _))

instance (σ : State) : (a : Action) → Decidable (Current σ a)
  | .advance _ _ => inferInstanceAs (Decidable (∀ d ∈ σ.dispatches, _ → _ → _ ∧ _))
  | .retry _ _ _ => inferInstanceAs (Decidable (∀ child ∈ retryChild _ _ _ _, ∀ failedId ∈ child.recoveryOf, _ ∧ _))
  | .delegate _ _ | .facts _ _ | .ensure _ _ | .dispatch _ _ _ | .crash _ | .enqueue _ | .row _ _
  | .mergeComment _ _ _ | .registerComment _ _ _ => isTrue trivial

/-- The comment is planned in a task of the coordinator that can execute, or
recorded as delivered, which is also how an exhaustion acknowledges it. -/
def Settled (tasks : List Task) (target : Target) (commentId : Nat) : Prop :=
  ∃ t ∈ tasks, t.belongs target.issueId target.agentId = true ∧
    (commentId ∈ t.deliveredCommentIds ∨ t.executable = true ∧ t.planned commentId = true)

/-! ## The invariant -/

/-- The failed task was delegated by the agent on the issue. -/
def Sourced (σ : State) (failedId issueId agentId : Nat) : Prop :=
  ∃ d, σ.delegated failedId = some d ∧ d.sourceIssueId = some issueId ∧ d.sourceAgentId = agentId

/-- Three recovery tasks are there, and the row is the newest of them. -/
structure Last (tasks : List Task) (failedId row : Nat) : Prop where
  length : (recoveryIds tasks failedId).length = delegatedFailureRecoveryMaxTaskAttempts
  last : (recoveryIds tasks failedId).getLast? = some row

structure Sound (σ : State) : Prop where
  keyed : Rows.Keyed Task.id σ.tasks
  dispatches : Rows.Keyed Dispatch.id σ.dispatches
  recoveryComments : (σ.recoveryComments.map Prod.snd).Nodup
  targets : ∀ d ∈ σ.dispatches, Sourced σ d.target.failedId d.target.issueId d.target.agentId
  rows : ∀ t ∈ σ.tasks, ∀ failedId, t.recoveryOf = some failedId → Sourced σ failedId t.issueId t.agentId
  evidence : ∀ t ∈ σ.tasks, ∀ failedId, t.delegatedFailure = some failedId → t.recoveryOf = some failedId
  bounded : ∀ failedId, (recoveryIds σ.tasks failedId).length ≤ delegatedFailureRecoveryMaxTaskAttempts
  counted : ∀ d ∈ σ.dispatches, d.point = .merge ∨ d.point = .create →
    d.recoveryTasks < delegatedFailureRecoveryMaxTaskAttempts
  held : ∀ d ∈ σ.dispatches, ∀ row, d.lock = some row → Last σ.tasks d.target.failedId row
  exclusive : ∀ d ∈ σ.dispatches, ∀ e ∈ σ.dispatches, ∀ row, d.lock = some row → e.lock = some row → d = e
  unfound : ∀ d ∈ σ.dispatches, ∀ row, d.point = .commit row false → d.target.failedId ∉ σ.notices
  notices : σ.notices.Nodup

theorem sound_start : Sound start := by
  refine ⟨Rows.Keyed.nil, Rows.Keyed.nil, nodup_nil, ?_, ?_, ?_, ?_, ?_, ?_, ?_, ?_, nodup_nil⟩ <;>
    simp [start, recoveryIds]

variable {failedId : Nat} {σ : State} {f : Task → Task} {t : Task} {d : Dispatch}
  {tasks : List Task}

/-- Two sources of one failed task agree. -/
theorem Sourced.unique {issueId agentId issueId' agentId' : Nat}
    (h : Sourced σ failedId issueId agentId) (h' : Sourced σ failedId issueId' agentId') :
    issueId = issueId' ∧ agentId = agentId' := by
  obtain ⟨d, hd, hissue, hagent⟩ := h
  obtain ⟨d', hd', hissue', hagent'⟩ := h'
  rw [hd] at hd'
  cases hd'
  rw [hissue] at hissue'
  cases hissue'
  exact ⟨rfl, hagent.symm.trans hagent'⟩

/-! ## Rows that change -/

/-- What a statement on a row leaves alone; its evidence can be replaced. -/
structure Mild (f : Task → Task) : Prop where
  id : ∀ t, (f t).id = t.id
  issueId : ∀ t, (f t).issueId = t.issueId
  agentId : ∀ t, (f t).agentId = t.agentId
  recoveryOf : ∀ t, (f t).recoveryOf = t.recoveryOf
  evidence : ∀ t failedId, (f t).delegatedFailure = some failedId → t.delegatedFailure = some failedId

theorem recoveryIds_update (hf : Mild f) (tasks : List Task) (id failedId : Nat) :
    recoveryIds (updateTask tasks id f) failedId = recoveryIds tasks failedId := by
  induction tasks with
  | nil => rfl
  | cons t rest ih =>
    have hrec : ∀ u : Task, isRecoveryOf failedId (if u.id == id then f u else u) = isRecoveryOf failedId u := by
      intro u
      split
      · rw [isRecoveryOf, isRecoveryOf, hf.recoveryOf]
      · rfl
    have hid : ∀ u : Task, (if u.id == id then f u else u).id = u.id := by
      intro u
      split
      · exact hf.id u
      · rfl
    simp only [recoveryIds, updateTask, Rows.update, map_cons, filter_cons, hrec] at ih ⊢
    split
    · rw [map_cons, map_cons, hid]
      exact congrArg _ ih
    · exact ih

theorem recoveryIds_append (tasks : List Task) (t : Task) (failedId : Nat) :
    recoveryIds (tasks ++ [t]) failedId =
      recoveryIds tasks failedId ++ if t.recoveryOf = some failedId then [t.id] else [] := by
  unfold recoveryIds
  rw [filter_append, map_append]
  congr 1
  by_cases h : t.recoveryOf = some failedId
  · simp [isRecoveryOf, h]
  · simp [isRecoveryOf, h]

/-- Where no evidence was replaced, the statement counts the recovery tasks. -/
theorem Sound.length_recoveryIds (h : Sound σ) (hstamped : Stamped σ failedId) :
    (recoveryIds σ.tasks failedId).length = countRecoveryTasks σ.tasks failedId := by
  unfold recoveryIds countRecoveryTasks
  rw [length_map]
  congr 1
  apply filter_congr
  intro t ht
  rw [Bool.eq_iff_iff, isRecoveryOf, attemptOf, beq_iff_eq, beq_iff_eq]
  exact ⟨hstamped t ht, h.evidence t ht failedId⟩

theorem Sound.updateTask (h : Sound σ) (hf : Mild f) (id : Nat) :
    Sound { σ with tasks := updateTask σ.tasks id f } := by
  have hids := recoveryIds_update hf σ.tasks id
  refine ⟨h.keyed.update _ fun row _ => hf.id row, h.dispatches, h.recoveryComments, h.targets, ?_, ?_, ?_,
    h.counted, ?_, h.exclusive, h.unfound, h.notices⟩
  · intro t ht failedId hrec
    rcases Rows.mem_update.mp ht with ⟨old, hold, _, rfl⟩ | ⟨hmem, _⟩
    · rw [hf.recoveryOf] at hrec
      rw [hf.issueId, hf.agentId]
      exact h.rows old hold failedId hrec
    · exact h.rows t hmem failedId hrec
  · intro t ht failedId hevidence
    rcases Rows.mem_update.mp ht with ⟨old, hold, _, rfl⟩ | ⟨hmem, _⟩
    · rw [hf.recoveryOf]
      exact h.evidence old hold failedId (hf.evidence old failedId hevidence)
    · exact h.evidence t hmem failedId hevidence
  · intro failedId
    show (recoveryIds (DelegatedRecovery.updateTask σ.tasks id f) failedId).length ≤ _
    rw [hids]
    exact h.bounded failedId
  · intro d hd row hlock
    obtain ⟨hlength, hlast⟩ := h.held d hd row hlock
    constructor
    · show (recoveryIds (DelegatedRecovery.updateTask σ.tasks id f) d.target.failedId).length = _
      rw [hids, hlength]
    · show (recoveryIds (DelegatedRecovery.updateTask σ.tasks id f) d.target.failedId).getLast? = _
      rw [hids, hlast]

/-- A row is inserted; a recovery task finds fewer than three. -/
theorem Sound.append (h : Sound σ) (hfresh : fresh σ.tasks t.id = true)
    (hsource : ∀ failedId, t.recoveryOf = some failedId → Sourced σ failedId t.issueId t.agentId)
    (hevidence : ∀ failedId, t.delegatedFailure = some failedId → t.recoveryOf = some failedId)
    (hcount : ∀ failedId, t.recoveryOf = some failedId →
      (recoveryIds σ.tasks failedId).length < delegatedFailureRecoveryMaxTaskAttempts) :
    Sound { σ with tasks := σ.tasks ++ [t] } := by
  refine ⟨?_, h.dispatches, h.recoveryComments, h.targets, ?_, ?_, ?_, h.counted, ?_, h.exclusive, h.unfound,
    h.notices⟩
  · apply h.keyed.insert
    intro old hold heq
    have hne := all_eq_true.mp hfresh old hold
    simp [heq] at hne
  · intro u hu failedId hrec
    rcases mem_append.mp hu with hold | hnew
    · exact h.rows u hold failedId hrec
    · rw [mem_singleton.mp hnew] at hrec ⊢
      exact hsource failedId hrec
  · intro u hu failedId hu_evidence
    rcases mem_append.mp hu with hold | hnew
    · exact h.evidence u hold failedId hu_evidence
    · rw [mem_singleton.mp hnew] at hu_evidence ⊢
      exact hevidence failedId hu_evidence
  · intro failedId
    rw [recoveryIds_append]
    by_cases hrec : t.recoveryOf = some failedId
    · have := hcount failedId hrec
      simp only [hrec, if_true, length_append, length_singleton]
      omega
    · simpa [hrec] using h.bounded failedId
  · intro d hd row hlock
    obtain ⟨hlength, hlast⟩ := h.held d hd row hlock
    have hother : t.recoveryOf ≠ some d.target.failedId := by
      intro hrec
      have := hcount _ hrec
      omega
    have hsame : recoveryIds (σ.tasks ++ [t]) d.target.failedId = recoveryIds σ.tasks d.target.failedId := by
      rw [recoveryIds_append, if_neg hother, append_nil]
    constructor
    · exact hsame ▸ hlength
    · exact hsame ▸ hlast

/-! ## Dispatches that move and end -/

theorem Sound.drop (h : Sound σ) (id : Nat) :
    Sound { σ with dispatches := σ.dispatches.filter fun e => e.id ≠ id } := by
  have hmem : ∀ d ∈ σ.dispatches.filter fun e => e.id ≠ id, d ∈ σ.dispatches :=
    fun d hd => (mem_filter.mp hd).1
  refine ⟨h.keyed, ?_, h.recoveryComments, fun d hd => h.targets d (hmem d hd), h.rows, h.evidence, h.bounded,
    fun d hd => h.counted d (hmem d hd), fun d hd => h.held d (hmem d hd), fun d hd e he => h.exclusive d (hmem d hd) e (hmem e he),
    fun d hd => h.unfound d (hmem d hd), h.notices⟩
  exact h.dispatches.sublist (filter_sublist.map _)

section

variable (h : Sound σ) (hd : d ∈ σ.dispatches)
include h hd

/-- A dispatch moves; a lock that it then has is of the newest recovery task, and
of nobody else. -/
theorem Sound.move {f : Dispatch → Dispatch} (hid : ∀ e, (f e).id = e.id)
    (htarget : ∀ e, (f e).target = e.target)
    (hcounted : (f d).point = .merge ∨ (f d).point = .create → (f d).recoveryTasks < delegatedFailureRecoveryMaxTaskAttempts)
    (hlock : ∀ row, (f d).lock = some row → Last σ.tasks d.target.failedId row ∧ ∀ e ∈ σ.dispatches, e.lock = some row → e = d)
    (hfound : ∀ row, (f d).point = .commit row false → d.target.failedId ∉ σ.notices) :
    Sound (setDispatch σ d.id f) := by
  have hmem : ∀ e ∈ (setDispatch σ d.id f).dispatches, e = f d ∨ (e ∈ σ.dispatches ∧ e ≠ d) := by
    intro e he
    rcases Rows.mem_update.mp he with ⟨old, hold, hp, rfl⟩ | ⟨hold, hp⟩
    · left
      rw [h.dispatches.eq_of_key hold hd (by simpa using hp)]
    · right
      refine ⟨hold, ?_⟩
      intro heq
      simp [heq] at hp
  refine ⟨h.keyed, h.dispatches.update _ fun e _ => hid e, h.recoveryComments, ?_, h.rows, h.evidence, h.bounded,
    ?_, ?_, ?_, ?_, h.notices⟩
  · intro e he
    rcases hmem e he with rfl | ⟨hold, _⟩
    · rw [htarget]
      exact h.targets d hd
    · exact h.targets e hold
  · intro e he
    rcases hmem e he with rfl | ⟨hold, _⟩
    · exact hcounted
    · exact h.counted e hold
  · intro e he row hrow
    rcases hmem e he with rfl | ⟨hold, _⟩
    · rw [htarget]
      exact (hlock row hrow).1
    · exact h.held e hold row hrow
  · intro e he e' he' row hrow hrow'
    rcases hmem e he with rfl | ⟨hold, hne⟩
    · rcases hmem e' he' with rfl | ⟨hold', hne'⟩
      · rfl
      · exact absurd ((hlock row hrow).2 e' hold' hrow') hne'
    · rcases hmem e' he' with rfl | ⟨hold', _⟩
      · exact absurd ((hlock row hrow').2 e hold hrow) hne
      · exact h.exclusive e hold e' hold' row hrow hrow'
  · intro e he row hpoint
    rcases hmem e he with rfl | ⟨hold, _⟩
    · rw [htarget]
      exact hfound row hpoint
    · exact h.unfound e hold row hpoint

theorem Sound.goTo {point : Point} (hlock : Dispatch.lock { d with point := point } = none)
    (hcounted : point = .merge ∨ point = .create → d.recoveryTasks < delegatedFailureRecoveryMaxTaskAttempts) :
    Sound (goTo σ d point).2 := by
  refine h.move hd (f := fun e => { e with point := point }) (fun _ => rfl) (fun _ => rfl) hcounted ?_ ?_
  · intro row hrow
    rw [hlock] at hrow
    cases hrow
  · intro row hpoint
    subst hpoint
    cases hlock

theorem Sound.nextPass :
    Sound (nextPass σ d).2 := by
  unfold DelegatedRecovery.nextPass
  split
  · exact h.drop d.id
  · refine h.move hd (f := fun e => { e with attempt := d.attempt + 1, point := .coverage }) (fun _ => rfl)
      (fun _ => rfl) ?_ ?_ ?_
    · intro hpoint
      cases hpoint <;> contradiction
    · intro row hrow
      cases hrow
    · intro row hpoint
      cases hpoint

end

theorem Sound.write (h : Sound σ) (hf : Mild f) :
    Sound (write σ d t f).2 := by
  unfold DelegatedRecovery.write
  split
  · exact h
  · exact (h.updateTask hf t.id).drop d.id

/-! ## The exhaustion -/

/-- Three rows with the evidence of the failed task are its recovery tasks, all of
them. -/
theorem Sound.attempts (h : Sound σ)
    (hcount : delegatedFailureRecoveryMaxTaskAttempts ≤ countRecoveryTasks σ.tasks failedId) :
    σ.tasks.filter (attemptOf failedId) = σ.tasks.filter (isRecoveryOf failedId) := by
  have hboth : σ.tasks.filter (attemptOf failedId) =
      (σ.tasks.filter (isRecoveryOf failedId)).filter (attemptOf failedId) := by
    rw [filter_filter]
    apply filter_congr
    intro t ht
    by_cases hevidence : attemptOf failedId t = true
    · have hrec := h.evidence t ht failedId (by simpa [attemptOf] using hevidence)
      simp [hevidence, isRecoveryOf, hrec]
    · simp [hevidence]
  have hsub : (σ.tasks.filter (attemptOf failedId)).Sublist (σ.tasks.filter (isRecoveryOf failedId)) := by
    rw [hboth]
    exact filter_sublist
  apply hsub.eq_of_length_le
  have hbound := h.bounded failedId
  unfold recoveryIds at hbound
  rw [length_map] at hbound
  unfold countRecoveryTasks at hcount
  omega

theorem Sound.newest_last (h : Sound σ) (ht : newest σ.tasks (attemptOf failedId) = some t)
    (hcount : delegatedFailureRecoveryMaxTaskAttempts ≤ countRecoveryTasks σ.tasks failedId) :
    Last σ.tasks failedId t.id := by
  have hsame := h.attempts hcount
  constructor
  · have hbound := h.bounded failedId
    unfold recoveryIds at hbound ⊢
    unfold countRecoveryTasks at hcount
    rw [hsame] at hcount
    rw [length_map] at hbound ⊢
    omega
  · unfold newest at ht
    unfold recoveryIds
    rw [← hsame, getLast?_map, ht]
    rfl

theorem Sound.acknowledgeExhausted (h : Sound σ) (hd : d ∈ σ.dispatches) :
    Sound (acknowledgeExhausted σ d).2 := by
  unfold DelegatedRecovery.acknowledgeExhausted
  split
  · exact h.drop d.id
  · rename_i t ht
    split
    · exact h
    · rename_i hfree
      split
      · exact h.drop d.id
      · rename_i hcount
        refine h.move hd (f := fun e => { e with point := .lookUp t.id }) (fun _ => rfl) (fun _ => rfl) ?_ ?_ ?_
        · intro hpoint
          cases hpoint <;> contradiction
        · intro row hrow
          cases hrow
          refine ⟨h.newest_last ht (by omega), ?_⟩
          intro e he hlock
          exact absurd (any_eq_true.mpr ⟨e, he, by simp [hlock]⟩) hfree
        · intro row hpoint
          cases hpoint

variable {row : Nat}

theorem Sound.lookUp (h : Sound σ) (hd : d ∈ σ.dispatches) (hpoint : d.point = .lookUp row) :
    Sound (DelegatedRecovery.goTo σ d (.commit row (σ.notices.contains d.target.failedId))).2 := by
  have hlocked : d.lock = some row := by simp [Dispatch.lock, hpoint]
  refine h.move hd (f := fun e => { e with point := .commit row (σ.notices.contains d.target.failedId) })
    (fun _ => rfl) (fun _ => rfl) ?_ ?_ ?_
  · intro hcommit
    cases hcommit <;> contradiction
  · intro row' hrow
    cases hrow
    exact ⟨h.held d hd row hlocked, fun e he hlock => h.exclusive e he d hd row hlock hlocked⟩
  · intro row' hcommit
    simp only [Point.commit.injEq] at hcommit
    intro hmem
    have hfound := hcommit.2
    simp [hmem] at hfound

theorem mild_acknowledge (commentId : Nat) : Mild (Task.acknowledge commentId) :=
  ⟨fun _ => rfl, fun _ => rfl, fun _ => rfl, fun _ => rfl, fun _ _ h => h⟩

/-- Everyone who is about to commit an exhaustion of this failed task holds the lock
of the same row. -/
theorem Sound.commitExhaustion (h : Sound σ) (hd : d ∈ σ.dispatches) {found : Bool}
    (hpoint : d.point = .commit row found) : Sound (commitExhaustion σ d row found).2 := by
  have hrows := (h.updateTask (mild_acknowledge d.commentId) row).drop d.id
  cases found with
  | true => exact hrows
  | false =>
    have hlocked : d.lock = some row := by simp [Dispatch.lock, hpoint]
    have hnew := h.unfound d hd row hpoint
    refine ⟨hrows.keyed, hrows.dispatches, hrows.recoveryComments, hrows.targets, hrows.rows, hrows.evidence,
      hrows.bounded, hrows.counted, hrows.held, hrows.exclusive, ?_, ?_⟩
    · intro e he row' hcommit
      obtain ⟨hold, hne⟩ := mem_filter.mp he
      have hne_d : e ≠ d := by
        intro heq
        simp [heq] at hne
      have hnotin := h.unfound e hold row' hcommit
      have hlocked' : e.lock = some row' := by simp [Dispatch.lock, hcommit]
      intro hmem
      rcases mem_append.mp hmem with hin | hlast
      · exact hnotin hin
      · have hsame : e.target.failedId = d.target.failedId := mem_singleton.mp hlast
        have hlast_d := (h.held d hd row hlocked).last
        have hlast_e := (h.held e hold row' hlocked').last
        rw [hsame, hlast_d] at hlast_e
        cases hlast_e
        exact hne_d (h.exclusive e hold d hd row hlocked' hlocked)
    · show (σ.notices ++ [d.target.failedId]).Nodup
      rw [nodup_append]
      refine ⟨h.notices, nodup_singleton _, ?_⟩
      intro a ha b hb heq
      rw [mem_singleton.mp hb] at heq
      exact hnew (heq ▸ ha)

/-! ## One step -/

theorem mild_foldIn (commentId : Nat) : Mild (Task.foldIn commentId) :=
  ⟨fun _ => rfl, fun _ => rfl, fun _ => rfl, fun _ => rfl, fun _ _ h => h⟩

theorem mild_register (commentId : Nat) : Mild (Task.register commentId) :=
  ⟨fun _ => rfl, fun _ => rfl, fun _ => rfl, fun _ => rfl, fun _ _ h => h⟩

theorem mild_mergeComment (commentId : Nat) :
    Mild fun t => { t.foldIn commentId with delegatedFailure := none } := by
  refine ⟨fun _ => rfl, fun _ => rfl, fun _ => rfl, fun _ => rfl, ?_⟩
  intro t failedId h
  cases h

theorem mild_row (action : RowAction) : Mild action.apply := by
  constructor <;> intro t <;> cases action <;> first | rfl | exact fun _ h => h

variable {newTaskId : Nat}

theorem Sound.dispatchStep (h : Sound σ) (hd : d ∈ σ.dispatches)
    (hcurrent : creates σ d newTaskId = true → Stamped σ d.target.failedId ∧ countRecoveryTasks σ.tasks d.target.failedId = d.recoveryTasks) :
    Sound (dispatchStep σ d newTaskId).2 := by
  unfold DelegatedRecovery.dispatchStep
  cases hpoint : d.point with
  | coverage =>
    dsimp only
    split
    · exact h.drop d.id
    · exact h.goTo hd rfl fun hor => by cases hor <;> contradiction
  | count =>
    dsimp only
    split
    · exact h.goTo hd rfl fun hor => by cases hor <;> contradiction
    · rename_i hbelow
      refine h.move hd (f := fun e => { e with recoveryTasks := _, point := .merge }) (fun _ => rfl) (fun _ => rfl)
        (fun _ => Nat.lt_of_not_le hbelow) ?_ ?_
      · intro row hrow
        cases hrow
      · intro row hcommit
        cases hcommit
  | merge =>
    dsimp only
    split
    · exact h.goTo hd rfl fun _ => h.counted d hd (.inl hpoint)
    · exact h.write (mild_foldIn d.commentId)
  | create =>
    dsimp only
    split
    · exact h.goTo hd rfl fun hor => by cases hor <;> contradiction
    · rename_i hfree
      split
      · rename_i hfresh
        have hcreates : creates σ d newTaskId = true := by simp [creates, hpoint, hfree, hfresh]
        obtain ⟨hstamped, hcount⟩ := hcurrent hcreates
        have hbelow := h.counted d hd (.inr hpoint)
        have hinserted := h.append (t := recoveryTask newTaskId d.target d.commentId) hfresh
          (by
            intro failedId hrec
            cases hrec
            exact h.targets d hd)
          (fun failedId hevidence => hevidence)
          (by
            intro failedId hrec
            cases hrec
            rw [h.length_recoveryIds hstamped, hcount]
            exact hbelow)
        exact hinserted.drop d.id
      · exact h.drop d.id
  | register =>
    dsimp only
    split
    · exact h.nextPass hd
    · exact h.write (mild_register d.commentId)
  | acknowledge => exact h.acknowledgeExhausted hd
  | lookUp row => exact h.lookUp hd hpoint
  | commit row found => exact h.commitExhaustion hd hpoint

theorem Sound.writeRow (h : Sound σ) (t : Option Task) (hf : Mild f) :
    Sound (writeRow σ t f) := by
  unfold DelegatedRecovery.writeRow
  cases t with
  | none => exact h
  | some t =>
    dsimp only
    split
    · exact h
    · exact h.updateTask hf t.id

/-- What is known of the delegated tasks changes, their sources apart. -/
theorem Sound.setDelegated (h : Sound σ) {g : Nat → Option DelegatedTask}
    (hg : ∀ failedId issueId agentId, Sourced σ failedId issueId agentId →
      Sourced { σ with delegated := g } failedId issueId agentId) : Sound { σ with delegated := g } :=
  ⟨h.keyed, h.dispatches, h.recoveryComments, fun d hd => hg _ _ _ (h.targets d hd),
    fun t ht failedId hrec => hg _ _ _ (h.rows t ht failedId hrec), h.evidence, h.bounded, h.counted, h.held,
    h.exclusive, h.unfound, h.notices⟩

theorem Sound.ensure (h : Sound σ) (failedId newCommentId : Nat) :
    Sound (ensureRecoveryComment σ failedId newCommentId) := by
  unfold ensureRecoveryComment
  split
  · exact h
  · split
    · exact h
    · rename_i hnone
      refine ⟨h.keyed, h.dispatches, ?_, h.targets, h.rows, h.evidence, h.bounded, h.counted, h.held, h.exclusive,
        h.unfound, h.notices⟩
      rw [map_append, nodup_append]
      refine ⟨h.recoveryComments, nodup_singleton _, ?_⟩
      intro a ha b hb heq
      obtain ⟨c, hc, rfl⟩ := mem_map.mp ha
      rw [map_singleton, mem_singleton] at hb
      exact hnone (any_eq_true.mpr ⟨c, hc, by simp [heq, hb]⟩)

variable {target : Target}

theorem sourced_of_loadTarget
    (h : (σ.delegated failedId).bind (loadTarget failedId) = some target) :
    Sourced σ target.failedId target.issueId target.agentId := by
  obtain ⟨d, hd, hload⟩ := Option.bind_eq_some_iff.mp h
  unfold loadTarget at hload
  cases hissue : d.sourceIssueId with
  | none => simp [hissue] at hload
  | some issueId =>
    rw [hissue] at hload
    have htarget : target = ⟨failedId, issueId, d.sourceAgentId⟩ := by
      split_ifs at hload <;> dsimp only at hload
      · split at hload <;> cases hload
      · split at hload
        · exact (Option.some.inj hload).symm
        · cases hload
    rw [htarget]
    exact ⟨d, hd, hissue, rfl⟩

theorem Sound.startDispatch (h : Sound σ) (dispatchId commentId : Nat)
    (excludeTaskId : Option Nat) :
    Sound (startDispatch σ dispatchId commentId excludeTaskId) := by
  unfold DelegatedRecovery.startDispatch
  split
  · exact h
  · split
    · exact h
    · rename_i target htarget
      split
      · exact h
      · rename_i hnew
        have hmem : ∀ e ∈ σ.dispatches ++ [⟨dispatchId, target, commentId, excludeTaskId, 0, 0, .coverage⟩],
            e ∈ σ.dispatches ∨ (e.target = target ∧ e.lock = none ∧ e.point = .coverage) := by
          intro e he
          rcases mem_append.mp he with hold | hlast
          · exact .inl hold
          · rw [mem_singleton.mp hlast]
            exact .inr ⟨rfl, rfl, rfl⟩
        refine ⟨h.keyed, ?_, h.recoveryComments, ?_, h.rows, h.evidence, h.bounded, ?_, ?_, ?_, ?_, h.notices⟩
        · apply h.dispatches.insert
          intro old hold heq
          exact hnew (any_eq_true.mpr ⟨old, hold, by simpa using heq⟩)
        · intro e he
          rcases hmem e he with hold | ⟨heq, _, _⟩
          · exact h.targets e hold
          · rw [heq]
            exact sourced_of_loadTarget htarget
        · intro e he hor
          rcases hmem e he with hold | ⟨_, _, hcoverage⟩
          · exact h.counted e hold hor
          · rw [hcoverage] at hor
            cases hor <;> contradiction
        · intro e he row hlock
          rcases hmem e he with hold | ⟨_, hnone, _⟩
          · exact h.held e hold row hlock
          · rw [hnone] at hlock
            cases hlock
        · intro e he e' he' row hlock hlock'
          rcases hmem e he with hold | ⟨_, hnone, _⟩
          · rcases hmem e' he' with hold' | ⟨_, hnone', _⟩
            · exact h.exclusive e hold e' hold' row hlock hlock'
            · rw [hnone'] at hlock'
              cases hlock'
          · rw [hnone] at hlock
            cases hlock
        · intro e he row hcommit
          rcases hmem e he with hold | ⟨_, _, hcoverage⟩
          · exact h.unfound e hold row hcommit
          · rw [hcoverage] at hcommit
            cases hcommit

/-- An automatic retry of a recovery task is one for the same failed task. -/
theorem retryChild_eq {parentId : Nat} {deferred : Bool} {child : Task}
    (h : retryChild tasks parentId newTaskId deferred = some child) :
    fresh tasks child.id = true ∧ ∃ p ∈ tasks, child.issueId = p.issueId ∧ child.agentId = p.agentId ∧
      child.recoveryOf = p.recoveryOf ∧ child.delegatedFailure = p.delegatedFailure := by
  unfold retryChild at h
  split at h
  · cases h
  · rename_i p hp
    rw [Option.ite_none_right_eq_some] at h
    obtain ⟨hguard, hchild⟩ := h
    rw [Bool.and_eq_true] at hguard
    cases hchild
    exact ⟨hguard.1, p, mem_of_find?_eq_some hp, rfl, rfl, rfl, rfl⟩

theorem sound_step (h : Sound σ) (a : Action) (hcurrent : Current σ a) : Sound (step σ a).2 := by
  cases a with
  | delegate failedId d =>
    unfold step
    dsimp only
    split
    · rename_i hnone
      apply h.setDelegated
      rintro other issueId agentId ⟨e, he, hrest⟩
      refine ⟨e, ?_, hrest⟩
      have hne : other ≠ failedId := by
        intro heq
        rw [heq, hnone] at he
        cases he
      show Function.update σ.delegated failedId (some d) other = some e
      rw [Function.update_of_ne hne, he]
    · exact h
  | facts failedId facts =>
    unfold step
    dsimp only
    split
    · exact h
    · rename_i d hd
      apply h.setDelegated
      rintro other issueId agentId ⟨e, he, hissue, hagent⟩
      by_cases heq : other = failedId
      · subst heq
        rw [hd] at he
        cases he
        exact ⟨{ d with facts := facts }, by simp, hissue, hagent⟩
      · refine ⟨e, ?_, hissue, hagent⟩
        show Function.update σ.delegated failedId _ other = some e
        rw [Function.update_of_ne heq, he]
  | ensure failedId newCommentId => exact h.ensure failedId newCommentId
  | dispatch dispatchId commentId excludeTaskId => exact h.startDispatch dispatchId commentId excludeTaskId
  | advance dispatchId newTaskId =>
    unfold step
    dsimp only
    split
    · exact h
    · rename_i d hd
      apply h.dispatchStep (mem_of_find?_eq_some hd)
      have hid : d.id = dispatchId := by simpa using find?_some hd
      exact hcurrent d (mem_of_find?_eq_some hd) hid
  | crash dispatchId => exact h.drop dispatchId
  | enqueue t =>
    unfold step
    dsimp only
    split
    · rename_i hguard
      rw [Bool.and_eq_true] at hguard
      refine h.append (t := { t with deliveredCommentIds := [], delegatedFailure := none, recoveryOf := none })
        hguard.1 ?_ ?_ ?_
      · intro failedId hrec
        cases hrec
      · intro failedId hevidence
        cases hevidence
      · intro failedId hrec
        cases hrec
    · exact h
  | row taskId action => exact h.writeRow _ (mild_row action)
  | mergeComment issueId agentId commentId => exact h.writeRow _ (mild_mergeComment commentId)
  | registerComment issueId agentId commentId => exact h.writeRow _ (mild_register commentId)
  | retry parentId newTaskId deferred =>
    unfold step
    dsimp only
    split
    · exact h
    · rename_i child hchild
      obtain ⟨hfresh, p, hp, hissue, hagent, hrecovery, hdelegated⟩ := retryChild_eq hchild
      apply h.append hfresh
      · intro failedId hrec
        rw [hissue, hagent]
        exact h.rows p hp failedId (hrecovery ▸ hrec)
      · intro failedId hevidence
        rw [hrecovery]
        exact h.evidence p hp failedId (hdelegated ▸ hevidence)
      · intro failedId hrec
        obtain ⟨hstamped, hbelow⟩ := hcurrent child hchild failedId hrec
        rw [h.length_recoveryIds hstamped]
        exact hbelow

/-! ## A dispatch that ends without an error -/

variable {commentId : Nat}

theorem settled_of_row (ht : t ∈ tasks)
    (hbelongs : (f t).belongs target.issueId target.agentId = true)
    (hplanned : commentId ∈ (f t).deliveredCommentIds ∨ (f t).executable = true ∧ (f t).planned commentId = true) :
    Settled (updateTask tasks t.id f) target commentId :=
  ⟨f t, Rows.mem_update.mpr (.inl ⟨t, ht, by simp, rfl⟩), hbelongs, hplanned⟩

theorem mem_of_newest {p : Task → Bool} (h : newest tasks p = some t) :
    t ∈ tasks ∧ p t = true :=
  mem_filter.mp (mem_of_getLast? h)

theorem settled_of_covered {excludeTaskId : Option Nat}
    (h : covered tasks target.issueId target.agentId commentId excludeTaskId = true) :
    Settled tasks target commentId := by
  obtain ⟨t, ht, hcover⟩ := any_eq_true.mp h
  rw [Bool.and_eq_true, Bool.or_eq_true] at hcover
  refine ⟨t, ht, hcover.1, ?_⟩
  rcases hcover.2 with hdelivered | hplanned
  · left
    simpa using hdelivered
  · right
    rw [Bool.and_eq_true, Bool.and_eq_true] at hplanned
    exact ⟨hplanned.1.2, hplanned.2⟩

theorem planned_foldIn (t : Task) (commentId : Nat) : (t.foldIn commentId).planned commentId = true := by
  simp [Task.foldIn, Task.planned]

theorem mem_addId (ids : List Nat) (id : Nat) : id ∈ addId ids id := by
  unfold addId
  split
  · rename_i h
    simpa using h
  · simp

theorem planned_register (t : Task) (commentId : Nat) : (t.register commentId).planned commentId = true := by
  simp [Task.register, Task.planned, mem_addId]

variable {e : Dispatch} {outcome : Outcome}

/-- A write that ends its dispatch has taken place. -/
theorem settled_of_write (h : (write σ d t f).1 = .done e outcome) (ht : t ∈ σ.tasks)
    (hbelongs : (f t).belongs d.target.issueId d.target.agentId = true)
    (hexecutable : (f t).executable = true) (hplanned : (f t).planned d.commentId = true) :
    e = d ∧ Settled (write σ d t f).2.tasks d.target d.commentId := by
  unfold write at h ⊢
  split at h
  · cases h
  · rename_i hfree
    rw [if_neg hfree]
    cases h
    exact ⟨rfl, settled_of_row ht hbelongs (.inr ⟨hexecutable, hplanned⟩)⟩

/-- The acknowledged row is one of the coordinator. -/
theorem Sound.settled_of_commit (h : Sound σ) (hd : d ∈ σ.dispatches) (hlock : d.lock = some row) :
    Settled (DelegatedRecovery.updateTask σ.tasks row (Task.acknowledge d.commentId)) d.target d.commentId := by
  have hlast := (h.held d hd row hlock).last
  obtain ⟨t, ht, hid⟩ := mem_map.mp (mem_of_getLast? hlast)
  obtain ⟨hmem, hrec⟩ := mem_filter.mp ht
  obtain ⟨hissue, hagent⟩ := (h.rows t hmem d.target.failedId (by simpa [isRecoveryOf] using hrec)).unique
    (h.targets d hd)
  rw [← hid]
  apply settled_of_row hmem
  · simp [Task.acknowledge, Task.belongs, hissue, hagent]
  · left
    exact mem_addId _ _

theorem Sound.settled_of_done (h : Sound σ) (hd : d ∈ σ.dispatches)
    (hreply : (DelegatedRecovery.dispatchStep σ d newTaskId).1 = .done e outcome) :
    e = d ∧ Settled (DelegatedRecovery.dispatchStep σ d newTaskId).2.tasks d.target d.commentId := by
  unfold DelegatedRecovery.dispatchStep at hreply ⊢
  cases hpoint : d.point with
  | coverage =>
    rw [hpoint] at hreply
    dsimp only at hreply ⊢
    by_cases hcovered :
        covered σ.tasks d.target.issueId d.target.agentId d.commentId d.excludeTaskId = true
    · rw [if_pos hcovered] at hreply ⊢
      cases hreply
      exact ⟨rfl, settled_of_covered hcovered⟩
    · rw [if_neg hcovered] at hreply
      cases hreply
  | count =>
    rw [hpoint] at hreply
    dsimp only at hreply
    split at hreply <;> cases hreply
  | merge =>
    rw [hpoint] at hreply
    dsimp only at hreply ⊢
    split at hreply
    · cases hreply
    · rename_i t ht
      obtain ⟨hmem, hp⟩ := mem_of_newest ht
      rw [Bool.and_eq_true, Bool.and_eq_true] at hp
      apply settled_of_write hreply hmem
      · exact hp.1.1
      · show ((t.foldIn d.commentId).unclaimed || (t.foldIn d.commentId).active) = true
        rw [Bool.or_eq_true]
        exact .inl hp.1.2
      · exact planned_foldIn t d.commentId
  | create =>
    rw [hpoint] at hreply
    dsimp only at hreply ⊢
    by_cases htaken : slotTaken σ.tasks d.target.issueId d.target.agentId = true
    · rw [if_pos htaken] at hreply
      cases hreply
    · rw [if_neg htaken] at hreply ⊢
      by_cases hfresh : fresh σ.tasks newTaskId = true
      · rw [if_pos hfresh] at hreply ⊢
        cases hreply
        refine ⟨rfl, recoveryTask newTaskId d.target d.commentId, mem_append_right _ (by simp), ?_, ?_⟩
        · simp [recoveryTask, Task.belongs]
        · right
          simp [recoveryTask, Task.executable, Task.unclaimed, Task.planned]
      · rw [if_neg hfresh] at hreply
        cases hreply
  | register =>
    rw [hpoint] at hreply
    dsimp only at hreply ⊢
    split at hreply
    · unfold DelegatedRecovery.nextPass at hreply
      split at hreply <;> cases hreply
    · rename_i t ht
      obtain ⟨hmem, hp⟩ := mem_of_newest ht
      rw [Bool.and_eq_true] at hp
      apply settled_of_write hreply hmem
      · exact hp.1
      · show ((t.register d.commentId).unclaimed || (t.register d.commentId).active) = true
        rw [Bool.or_eq_true]
        exact .inr hp.2
      · exact planned_register t d.commentId
  | acknowledge =>
    rw [hpoint] at hreply
    dsimp only [DelegatedRecovery.acknowledgeExhausted] at hreply
    split at hreply
    · cases hreply
    · split at hreply
      · cases hreply
      · split at hreply <;> cases hreply
  | lookUp row =>
    rw [hpoint] at hreply
    cases hreply
  | commit row found =>
    rw [hpoint] at hreply
    cases hreply
    refine ⟨rfl, h.settled_of_commit hd ?_⟩
    simp [Dispatch.lock, hpoint]

theorem Sound.settled_of_step (h : Sound σ) {a : Action} (hreply : (step σ a).1 = .done d outcome) :
    Settled (step σ a).2.tasks d.target d.commentId := by
  cases a with
  | advance dispatchId newTaskId =>
    unfold step at hreply ⊢
    dsimp only at hreply ⊢
    split at hreply
    · cases hreply
    · rename_i e he
      obtain ⟨rfl, hsettled⟩ := h.settled_of_done (mem_of_find?_eq_some he) hreply
      exact hsettled
  | delegate failedId d =>
    unfold step at hreply
    dsimp only at hreply
    split at hreply <;> cases hreply
  | facts failedId facts =>
    unfold step at hreply
    dsimp only at hreply
    split at hreply <;> cases hreply
  | enqueue t =>
    unfold step at hreply
    dsimp only at hreply
    split at hreply <;> cases hreply
  | retry parentId newTaskId deferred =>
    unfold step at hreply
    dsimp only at hreply
    split at hreply <;> cases hreply
  | ensure failedId newCommentId | dispatch dispatchId commentId excludeTaskId
  | crash dispatchId | row taskId action | mergeComment issueId agentId commentId
  | registerComment issueId agentId commentId => cases hreply

/-! ## Runs -/

/-- In every run in which no count is stale when a recovery task is inserted on it, and
retries of recovery tasks make the check, a failed task has one recovery comment, one notice and three recovery tasks at most,
and a dispatch that ends without an error has settled its comment. -/
theorem recovery_bounded {c : Config State Action Reply}
    (h : Reach step (fun c a => Current c.state a) (Machine.start start) c) :
    (∀ failedId, (c.state.recoveryComments.map Prod.snd).count failedId ≤ 1 ∧ c.state.notices.count failedId ≤ 1 ∧
      (recoveryIds c.state.tasks failedId).length ≤ delegatedFailureRecoveryMaxTaskAttempts) ∧
    ∀ a d outcome, Current c.state a → (step c.state a).1 = .done d outcome →
      Settled (step c.state a).2.tasks d.target d.commentId := by
  have hsound : Sound c.state := by
    apply h.invariant (I := fun c => Sound c.state)
    · intro c a hcurrent hc
      exact sound_step hc a hcurrent
    · exact sound_start
  constructor
  · intro failedId
    exact ⟨nodup_iff_count_le_one.mp hsound.recoveryComments failedId,
      nodup_iff_count_le_one.mp hsound.notices failedId, hsound.bounded failedId⟩
  · intro a d outcome _ hreply
    exact hsound.settled_of_step hreply

/-! ## Four recovery tasks -/

def helperFailed : DelegatedTask where
  agentId := 8
  sourceIssueId := some 1
  sourceAgentId := 7
  facts := {
    failed := true
    autopilotRun := false
    isRecovery := false
    hasRetry := false
    sourceFound := true
    sourceAutopilotRun := false
    issueStatus := some .open
    agentFound := true
    agentArchived := false
    agentHasRuntime := true
    sameWorkspace := true }

/-- A dispatch of comment 500 inserts a task, which fails before its receipt. -/
def failedRound (dispatchId newTaskId : Nat) : List Action :=
  [.dispatch dispatchId 500 none, .advance dispatchId 0, .advance dispatchId 0, .advance dispatchId 0,
    .advance dispatchId newTaskId, .row newTaskId .claim, .row newTaskId .fail]

def twoRounds : List Action := [Action.delegate 100 helperFailed, .ensure 100 500] ++ failedRound 1 11 ++ failedRound 2 12

/-- A third task, and a dispatch that finds the limit reached. -/
def exhausted : List Action :=
  twoRounds ++ failedRound 3 13 ++
    [.dispatch 4 500 none, .advance 4 0, .advance 4 0, .advance 4 0, .advance 4 0, .advance 4 0]

theorem recovery_bounded_exhausted :
    let c := exec step (Machine.start start) exhausted
    c.state.notices = [100] ∧ (recoveryIds c.state.tasks 100).length = 3 ∧
      c.state.notices.count 100 ≤ 1 ∧ (recoveryIds c.state.tasks 100).length ≤ delegatedFailureRecoveryMaxTaskAttempts :=
  have hrun : Reach step (fun c a => Current c.state a) (Machine.start start)
      (exec step (Machine.start start) exhausted) := reach_exec (by decide +kernel)
  ⟨by decide +kernel, by decide +kernel, ((recovery_bounded hrun).1 100).2⟩

/-- Two sweeps count two recovery tasks; the second inserts its own after the task of
the first has been claimed and started. -/
def staleCount : List Action :=
  twoRounds ++
    [Action.dispatch 3 500 none, .advance 3 0, .advance 3 0, .advance 3 0,
      .dispatch 4 500 none, .advance 4 0, .advance 4 0, .advance 4 0,
      .advance 3 13, .row 13 .claim, .row 13 (.receipt [500]), .row 13 .start,
      .advance 4 14]

theorem four_recovery_tasks :
    ¬ ∀ c : Config State Action Reply, Reach step (fun _ _ => True) (Machine.start start) c →
      ∀ failedId, (recoveryIds c.state.tasks failedId).length ≤ delegatedFailureRecoveryMaxTaskAttempts := by
  intro h
  have hreach : Reach step (fun _ _ => True) (Machine.start start)
      (exec step (Machine.start start) staleCount) :=
    reach_exec (allAllowed_of_forall (fun _ _ => trivial) _ _)
  have hfour : recoveryIds (exec step (Machine.start start) staleCount).state.tasks 100 = [11, 12, 13, 14] := by
    decide +kernel
  have hbound := h _ hreach 100
  rw [hfour] at hbound
  exact absurd hbound (by decide)

end ClawMessenger.Ports.DelegatedRecovery
