import ClawMessenger.Ports.ChatTurnsBooks

/-!
# Every ended turn has one outcome

What is owed is what the open calls are to settle.  The sweeps and the cancellation
of all tasks of an agent end rows of a chat and write nothing to the transcript:
`Settles` asks that a sweep takes only rows that are retried, and that the
cancellation finds none.  In every run of such steps an ended turn has exactly one
outcome wherever no call is open.
-/

namespace ClawMessenger.Ports.ChatTurns

open Verified Verified.Machine List
open TaskQueue (Status)

/-- No turn ends without an outcome. -/
def Settles (σ : State) : Action → Prop
  | .sweep _ kind selected => ∀ t ∈ kind.victims σ.tasks selected, retryEligible kind.reason t = true
  | .cancelAgent => ∀ t ∈ σ.tasks, t.status.unfinished = false
  | _ => True

instance (σ : State) : DecidablePred (Settles σ) := fun a => by
  unfold Settles
  split <;> infer_instance

/-! ## What the open calls owe -/

def Work.taskIds : Work → List Nat
  | .finalize taskId _ => [taskId]
  | .handle taskIds => taskIds

def owedBy (calls : List Call) : List Nat := calls.flatMap fun c => c.work.taskIds

theorem owedBy_append (calls : List Call) (c : Call) : (owedBy (calls ++ [c])).Perm (c.work.taskIds ++ owedBy calls) := by
  unfold owedBy
  rw [flatMap_append, flatMap_singleton]
  exact perm_append_comm

variable {calls : List Call} {id callId : Nat} {f : Task → Task} {tasks : List Task} {σ : State}
  {t : Task}

theorem filter_ne_of_notMem (h : ∀ c ∈ calls, c.id ≠ id) :
    calls.filter (fun c => c.id ≠ id) = calls :=
  filter_eq_self.mpr fun c hc => by simpa using h c hc

variable {c : Call}

/-- A call that is updated, where it stood. -/
theorem owedBy_setWork (hkeyed : Rows.Keyed Call.id calls) (hc : c ∈ calls) (work : Work) :
    (owedBy (Rows.update calls (fun e => e.id == c.id) fun e => { e with work := work })).Perm
      (work.taskIds ++ owedBy (calls.filter fun e => e.id ≠ c.id)) := by
  induction calls with
  | nil => cases hc
  | cons e rest ih =>
    have hrest : Rows.Keyed Call.id rest := (nodup_cons.mp hkeyed).2
    have hnew : ∀ d ∈ rest, d.id ≠ e.id := by
      intro d hd heq
      exact (nodup_cons.mp hkeyed).1 (mem_map.mpr ⟨d, hd, heq⟩)
    by_cases heq : e.id = c.id
    · have hce : ∀ d ∈ rest, d.id ≠ c.id := fun d hd => heq ▸ hnew d hd
      have hupdate : Rows.update rest (fun d => d.id == c.id) (fun d => { d with work := work }) = rest :=
        Rows.update_of_none _ fun d hd => by simpa using hce d hd
      have hfilter := filter_ne_of_notMem hce
      simp only [Rows.update, map_cons] at hupdate ⊢
      rw [hupdate]
      simp only [heq, owedBy, flatMap_cons, filter_cons, ne_eq, not_true_eq_false, decide_false,
        beq_self_eq_true, if_true, if_false, Bool.false_eq_true] at hfilter ⊢
      rw [hfilter]
    · have hc' : c ∈ rest := by
        rcases mem_cons.mp hc with rfl | hc'
        · exact absurd rfl heq
        · exact hc'
      have hperm := ih hrest hc'
      simp only [owedBy, Rows.update, map_cons, flatMap_cons, filter_cons, beq_iff_eq, heq, if_false,
        ne_eq, not_false_eq_true, decide_true, if_true] at hperm ⊢
      exact (Perm.append_left _ hperm).trans (perm_append_comm_assoc _ _ _)

theorem owedBy_close (hkeyed : Rows.Keyed Call.id calls) (hc : c ∈ calls) :
    (owedBy calls).Perm (c.work.taskIds ++ owedBy (calls.filter fun e => e.id ≠ c.id)) := by
  have hsame : Rows.update calls (fun e => e.id == c.id) (fun e => { e with work := c.work }) = calls := by
    conv_rhs => rw [← map_id calls]
    apply map_congr_left
    intro e he
    split
    · rename_i heq
      rw [hkeyed.eq_of_key he hc (by simpa using heq)]
      rfl
    · rfl
  have hperm := owedBy_setWork hkeyed hc c.work
  rw [hsame] at hperm
  exact hperm

/-! ## Rows that are to be retried -/

def Retriable (t : Task) : Prop :=
  t.status = .failed ∧ ∃ reason, t.failureReason = some reason ∧ retryEligible reason t = true

/-- The row is there, and retriable if it was. -/
def Holds (t t' : Task) : Prop := t'.id = t.id ∧ (Retriable t → Retriable t')

theorem Holds.refl (t : Task) : Holds t t := ⟨rfl, fun h => h⟩

theorem Holds.trans (a b c : Task) (hab : Holds a b) (hbc : Holds b c) : Holds a c :=
  ⟨hbc.1.trans hab.1, fun h => hbc.2 (hab.2 h)⟩

/-- An update of rows that have not failed, or of columns that a retry does not read. -/
theorem grows_update {p : Task → Bool} (hf : Keeps f)
    (h : ∀ t ∈ tasks, p t = true → t.status ≠ .failed ∨
      ((f t).status = t.status ∧ (f t).failureReason = t.failureReason ∧ (f t).attempt = t.attempt ∧
        (f t).maxAttempts = t.maxAttempts)) : Rows.Grows Holds tasks (Rows.update tasks p f) := by
  apply Rows.Grows.update Holds.refl
  intro t ht hpt
  refine ⟨hf.id t, ?_⟩
  rintro ⟨hfailed, reason, hreason, heligible⟩
  rcases h t ht hpt with hopen | ⟨hstatus, hreason', hattempt, hmax⟩
  · exact absurd hfailed hopen
  · refine ⟨hstatus.trans hfailed, reason, hreason'.trans hreason, ?_⟩
    unfold retryEligible at heligible ⊢
    rw [hattempt, hmax]
    exact heligible

structure Booked (σ : State) : Prop where
  books : Sound σ (owedBy σ.calls)
  calls : Rows.Keyed Call.id σ.calls
  handled : ∀ c ∈ σ.calls, ∀ taskIds, c.work = .handle taskIds → ∀ taskId ∈ taskIds,
    ∃ t ∈ σ.tasks, t.id = taskId ∧ Retriable t

theorem booked_start : Booked start :=
  ⟨sound_start, nodup_nil, fun _ hc => absurd hc not_mem_nil⟩

variable {σ' : State}

theorem Booked.handled_of_grows (h : Booked σ) (hgrows : Rows.Grows Holds σ.tasks σ'.tasks)
    (hcalls : ∀ c ∈ σ'.calls, ∀ taskIds, c.work = .handle taskIds → c ∈ σ.calls) :
    ∀ c ∈ σ'.calls, ∀ taskIds, c.work = .handle taskIds → ∀ taskId ∈ taskIds,
      ∃ t ∈ σ'.tasks, t.id = taskId ∧ Retriable t := by
  intro c hc taskIds hwork taskId hmem
  obtain ⟨t, ht, hid, hretriable⟩ := h.handled c (hcalls c hc taskIds hwork) taskIds hwork taskId hmem
  obtain ⟨t', ht', hid', hholds⟩ := hgrows t ht
  exact ⟨t', ht', hid'.trans hid, hholds hretriable⟩

/-- A step that leaves the calls alone. -/
theorem Booked.keep (h : Booked σ) (hcalls : σ'.calls = σ.calls)
    (hsound : Sound σ' (owedBy σ.calls)) (hgrows : Rows.Grows Holds σ.tasks σ'.tasks) :
    Booked σ' := by
  refine ⟨hcalls ▸ hsound, hcalls ▸ h.calls, h.handled_of_grows hgrows ?_⟩
  intro c hc _ _
  exact hcalls ▸ hc

variable {guard : Task → Bool}

theorem guarded_eq (h : guarded tasks id guard = some t) :
    t ∈ tasks ∧ t.id = id ∧ guard t = true := by
  have hp := find?_some h
  rw [Bool.and_eq_true] at hp
  exact ⟨mem_of_find?_eq_some h, by simpa using hp.1, hp.2⟩

theorem keeps_setStatus (status : Status) : Keeps (Task.setStatus status) :=
  ⟨fun _ => rfl, fun _ => rfl, fun _ => rfl⟩

theorem keeps_fail (reason : String) : Keeps (Task.fail reason) := ⟨fun _ => rfl, fun _ => rfl, fun _ => rfl⟩

theorem keeps_finalizeDeferred (marker : Bool) : Keeps fun t => { t with finalizeDeferred := marker } :=
  ⟨fun _ => rfl, fun _ => rfl, fun _ => rfl⟩

theorem ne_failed_of_unfinished (h : t.status.unfinished = true) : t.status ≠ .failed := by
  intro heq
  rw [heq] at h
  cases h

theorem unfinished_of_active (h : t.status.active = true) : t.status.unfinished = true := by
  unfold Status.unfinished
  simp [h]

theorem unfinished_of_eq {status : Status} (h : (t.status == status) = true)
    (hstatus : status.unfinished = true) : t.status.unfinished = true := by
  rw [beq_iff_eq] at h
  rw [h]
  exact hstatus

/-! ## Calls of one transaction -/

theorem deleteInput_frame {owner : Nat} {f : State → State} (hf : HandsOver owner f) (σ : State) :
    (deleteInput σ owner f).tasks = σ.tasks ∧ (deleteInput σ owner f).calls = σ.calls := by
  unfold deleteInput
  split
  · exact ⟨hf.tasks _, hf.calls _⟩
  · exact ⟨rfl, rfl⟩

theorem Booked.moveTask (h : Booked σ) (hf : Keeps f)
    (hmarker : ∀ t, (f t).finalizeDeferred = t.finalizeDeferred)
    (hstatus : ∀ t, guard t = true → ((f t).status = t.status ∧ (f t).failureReason = t.failureReason ∧ (f t).attempt = t.attempt ∧ (f t).maxAttempts = t.maxAttempts) ∨ ((f t).status.unfinished = true ∧ t.status.unfinished = true)) :
    Booked (moveTask σ id guard f) := by
  unfold ChatTurns.moveTask
  cases hfound : guarded σ.tasks id guard with
  | none => exact h
  | some t =>
    obtain ⟨ht, hid, hguard⟩ := guarded_eq hfound
    have hself : ∀ u ∈ σ.tasks, (u.id == t.id) = true → u = t :=
      fun u hu heq => h.books.keyed.eq_of_key hu ht (by simpa using heq)
    dsimp only
    refine h.keep ?_ ?_ ?_
    · rfl
    · apply h.books.move hf hmarker
      intro u hu heq
      rw [hself u hu heq]
      exact (hstatus t hguard).imp_left And.left
    · apply grows_update hf
      intro u hu heq
      rw [hself u hu heq]
      rcases hstatus t hguard with hsame | ⟨_, hopen⟩
      · exact .inr hsame
      · exact .inl (ne_failed_of_unfinished hopen)

theorem notMem_of_all (h : (tasks.all fun t => t.id != id) = true) :
    id ∉ tasks.map Task.id := by
  intro hmem
  obtain ⟨t, ht, heq⟩ := mem_map.mp hmem
  have hne := all_eq_true.mp h t ht
  simp [heq] at hne

theorem Booked.send (h : Booked σ) (now messageId : Nat) {taskId : Nat}
    (hnew : (σ.tasks.all fun t => t.id != taskId) = true) : Booked (send σ now taskId messageId) := by
  refine h.keep ?_ ?_ ?_
  · rfl
  · exact h.books.send now messageId (notMem_of_all hnew)
  · exact Rows.Grows.insert Holds.refl _ _

theorem claimable_eq {locked : List Nat} (h : claimable tasks locked = some t) :
    t ∈ tasks ∧ t.status = .queued ∧ ∀ u ∈ tasks, u.status.active = false := by
  unfold claimable at h
  split at h
  · cases h
  · rename_i hidle
    have hmem := mem_filter.mp (argmin_mem h)
    rw [Bool.and_eq_true, beq_iff_eq] at hmem
    refine ⟨hmem.1, hmem.2.1, ?_⟩
    intro u hu
    by_contra hactive
    exact hidle (any_eq_true.mpr ⟨u, hu, by simpa using hactive⟩)

theorem Booked.claim (h : Booked σ) (now : Nat)
    (locked : List Nat) : Booked (claim σ now locked) := by
  unfold ChatTurns.claim
  cases hfound : claimable σ.tasks locked with
  | none => exact h
  | some t =>
    obtain ⟨ht, hqueued, _⟩ := claimable_eq hfound
    have hself : ∀ u ∈ σ.tasks, (u.id == t.id) = true → u = t :=
      fun u hu heq => h.books.keyed.eq_of_key hu ht (by simpa using heq)
    have hmoved : Sound { σ with tasks := updateTask σ.tasks t.id (Task.setStatus .dispatched) }
        (owedBy σ.calls) := by
      apply h.books.move (keeps_setStatus _) fun _ => rfl
      intro u hu heq
      right
      rw [hself u hu heq, hqueued]
      exact ⟨rfl, rfl⟩
    have hgrows : Rows.Grows Holds σ.tasks (updateTask σ.tasks t.id (Task.setStatus .dispatched)) := by
      apply grows_update (keeps_setStatus _)
      intro u hu heq
      left
      rw [hself u hu heq, hqueued]
      exact Status.noConfusion
    dsimp only
    split
    · exact h.keep rfl (hmoved.retime (retimed_reanchorClaimed _ _ t.id now)) hgrows
    · exact h.keep rfl hmoved hgrows

/-- A row that ends, with the rows it leaves. -/
theorem Booked.endOne (h : Booked σ) (ht : t ∈ σ.tasks) (hunfinished : t.status.unfinished = true)
    (hf : Keeps f) (hmarker : ∀ t, (f t).finalizeDeferred = t.finalizeDeferred)
    (hended : ∀ t, (f t).status.unfinished = false) :
    Sound (setTask σ t.id f) (t.id :: owedBy σ.calls) ∧ Rows.Grows Holds σ.tasks (setTask σ t.id f).tasks ∧
      f t ∈ (setTask σ t.id f).tasks := by
  refine ⟨h.books.closeOne ht hunfinished hf hmarker hended, ?_, ?_⟩
  · apply grows_update hf
    intro u hu heq
    left
    rw [h.books.keyed.eq_of_key hu ht (by simpa using heq)]
    exact ne_failed_of_unfinished hunfinished
  · exact Rows.mem_update.mpr (.inl ⟨t, ht, by simp, rfl⟩)

theorem Booked.complete (h : Booked σ) (now taskId messageId : Nat) :
    Booked (complete σ now taskId messageId) := by
  unfold ChatTurns.complete
  cases hfound : guarded σ.tasks taskId fun t => t.status == .running with
  | none => exact h
  | some t =>
    obtain ⟨ht, _, hrunning⟩ := guarded_eq hfound
    obtain ⟨hsound, hgrows, _⟩ := h.endOne ht (unfinished_of_eq hrunning rfl) (keeps_setStatus .completed)
      (fun _ => rfl) (fun _ => rfl)
    refine h.keep ?_ (hsound.answer now messageId) hgrows
    rfl

variable {newTaskId : Nat}

theorem Booked.failTask (h : Booked σ) (now taskId messageId : Nat) (reason : String)
    (hnew : (σ.tasks.all fun t => t.id != newTaskId) = true) :
    Booked (failTask σ now taskId newTaskId messageId reason) := by
  unfold ChatTurns.failTask
  cases hfound : guarded σ.tasks taskId fun t => t.status.active with
  | none => exact h
  | some t =>
    obtain ⟨ht, _, hactive⟩ := guarded_eq hfound
    obtain ⟨hsound, hgrows, hmem⟩ := h.endOne ht (unfinished_of_active hactive) (keeps_fail reason)
      (fun _ => rfl) (fun _ => rfl)
    dsimp only
    split
    · have hids : (setTask σ t.id (Task.fail reason)).tasks.map Task.id = σ.tasks.map Task.id :=
        Rows.Keyed.map_update _ fun _ _ => rfl
      refine h.keep ?_ ?_ ?_
      · rfl
      · apply Sound.retry (t := Task.fail reason t) hsound hmem rfl rfl rfl
        rw [hids]
        exact notMem_of_all hnew
      · exact Rows.Grows.trans Holds.trans hgrows (Rows.Grows.insert Holds.refl _ _)
    · refine h.keep ?_ (hsound.answer now messageId) hgrows
      rfl

theorem Booked.cancelQueued (h : Booked σ) (taskId : Nat) (action : QueueAction) :
    Booked (cancelQueued σ taskId action) := by
  unfold ChatTurns.cancelQueued
  cases hfound : guarded σ.tasks taskId fun t => t.status == .queued with
  | none => exact h
  | some t =>
    obtain ⟨ht, _, hqueued⟩ := guarded_eq hfound
    obtain ⟨hsound, hgrows, hmem⟩ := h.endOne ht (unfinished_of_eq hqueued rfl) (keeps_setStatus .cancelled)
      (fun _ => rfl) (fun _ => rfl)
    have hwithdraw : ∀ f, HandsOver t.chatInputTaskId f →
        Booked (deleteInput (setTask σ t.id (Task.setStatus .cancelled)) t.chatInputTaskId f) := by
      intro f hf
      have hframe := deleteInput_frame hf (setTask σ t.id (Task.setStatus .cancelled))
      refine h.keep hframe.2 (Sound.withdraw (t := Task.setStatus .cancelled t) hsound hmem hf) ?_
      rw [hframe.1]
      exact hgrows
    cases action with
    | edit => exact hwithdraw _ (handsOver_toDrafts _)
    | remove => exact hwithdraw _ (handsOver_toRemoved _)

/-- Removed inputs, one after another. -/
theorem Sound.removeAll {owed : List Nat} (rows : List Task)
    (h : Sound σ (rows.map Task.id ++ owed))
    (hrows : ∀ t ∈ rows, Task.setStatus .cancelled t ∈ σ.tasks) :
    Sound (rows.foldl (fun σ t => settleQueued σ t .remove) σ) owed ∧
      (rows.foldl (fun σ t => settleQueued σ t .remove) σ).tasks = σ.tasks ∧
      (rows.foldl (fun σ t => settleQueued σ t .remove) σ).calls = σ.calls := by
  induction rows generalizing σ with
  | nil => exact ⟨h, rfl, rfl⟩
  | cons t rest ih =>
    have hframe := deleteInput_frame (handsOver_toRemoved t.chatInputTaskId) σ
    have hone : Sound (settleQueued σ t .remove) (rest.map Task.id ++ owed) :=
      Sound.withdraw (t := Task.setStatus .cancelled t) h (hrows t mem_cons_self) (handsOver_toRemoved _)
    have hleft : ∀ u ∈ rest, Task.setStatus .cancelled u ∈ (settleQueued σ t .remove).tasks := by
      intro u hu
      rw [show (settleQueued σ t .remove).tasks = σ.tasks from hframe.1]
      exact hrows u (mem_cons_of_mem _ hu)
    obtain ⟨hsound, htasks, hcalls⟩ := ih hone hleft
    exact ⟨hsound, htasks.trans hframe.1, hcalls.trans hframe.2⟩

/-- Rows that end together. -/
theorem Booked.endRows (h : Booked σ) {rows : List Task} (hrows : rows.Sublist σ.tasks)
    (hunfinished : ∀ t ∈ rows, t.status.unfinished = true) (hf : Keeps f)
    (hmarker : ∀ t, (f t).finalizeDeferred = t.finalizeDeferred)
    (hended : ∀ t, (f t).status.unfinished = false) :
    Sound { σ with tasks := Rows.update σ.tasks (fun t => rows.any fun row => row.id == t.id) f }
        (rows.map Task.id ++ owedBy σ.calls) ∧
      Rows.Grows Holds σ.tasks (Rows.update σ.tasks (fun t => rows.any fun row => row.id == t.id) f) ∧
      ∀ t ∈ rows, f t ∈ Rows.update σ.tasks (fun t => rows.any fun row => row.id == t.id) f := by
  have hany : ∀ t : Task, (rows.any fun row => row.id == t.id) = true ↔ t.id ∈ rows.map Task.id := by
    intro t
    rw [any_eq_true, mem_map]
    simp
  have hrow : ∀ t ∈ σ.tasks, t.id ∈ rows.map Task.id → t ∈ rows := by
    intro t ht hmem
    obtain ⟨row, hrow, heq⟩ := mem_map.mp hmem
    rw [← h.books.keyed.eq_of_key (hrows.subset hrow) ht heq]
    exact hrow
  refine ⟨?_, ?_, ?_⟩
  · apply h.books.close hf hmarker (h.books.keyed.sublist (hrows.map Task.id))
    · intro t _
      exact hany t
    · intro taskId hmem
      exact (hrows.map Task.id).subset hmem
    · intro t ht hmem
      exact hunfinished t (hrow t ht hmem)
    · exact hended
  · apply grows_update hf
    intro t ht hp
    left
    exact ne_failed_of_unfinished (hunfinished t (hrow t ht ((hany t).mp hp)))
  · intro t ht
    exact Rows.mem_update.mpr (.inl ⟨t, hrows.subset ht, (hany t).mpr (mem_map.mpr ⟨t, ht, rfl⟩), rfl⟩)

theorem Booked.cancelFollowUps (h : Booked σ) : Booked (cancelFollowUps σ) := by
  have hrows : (followUps σ.tasks).Sublist σ.tasks := filter_sublist
  have hunfinished : ∀ t ∈ followUps σ.tasks, t.status.unfinished = true := by
    intro t ht
    have hp := (mem_filter.mp ht).2
    rw [Bool.and_eq_true] at hp
    exact unfinished_of_eq hp.1 rfl
  obtain ⟨hsound, hgrows, hmem⟩ := h.endRows hrows hunfinished (keeps_setStatus .cancelled) (fun _ => rfl)
    (fun _ => rfl)
  obtain ⟨hremoved, htasks, hcalls⟩ := Sound.removeAll (followUps σ.tasks) hsound hmem
  refine h.keep hcalls hremoved ?_
  rw [show (ChatTurns.cancelFollowUps σ).tasks = cancelRows σ.tasks (followUps σ.tasks) from htasks]
  exact hgrows

theorem Booked.finalizeDeferred (h : Booked σ) (now taskId messageId : Nat) :
    Booked (finalizeDeferred σ now taskId messageId) := by
  unfold ChatTurns.finalizeDeferred
  cases hfound : guarded σ.tasks taskId Task.finalizeDeferred with
  | none => exact h
  | some t =>
    obtain ⟨ht, _, hmarked⟩ := guarded_eq hfound
    have hsound := h.books.takeUp ht hmarked
    have hgrows : Rows.Grows Holds σ.tasks
        (setTask σ t.id fun t => { t with finalizeDeferred := false }).tasks := by
      apply grows_update (keeps_finalizeDeferred false)
      intro u _ _
      exact .inr ⟨rfl, rfl, rfl, rfl⟩
    dsimp only
    split
    · have hframe := deleteInput_frame (handsOver_toDrafts t.chatInputTaskId)
        (setTask σ t.id fun t => { t with finalizeDeferred := false })
      refine h.keep hframe.2 (Sound.withdraw (t := { t with finalizeDeferred := false }) hsound
        (Rows.mem_update.mpr (.inl ⟨t, ht, by simp, rfl⟩)) (handsOver_toDrafts _)) ?_
      rw [hframe.1]
      exact hgrows
    · refine h.keep ?_ (hsound.answer now messageId) hgrows
      rfl

/-- With no unfinished row there is nothing to cancel. -/
theorem Booked.cancelAgent (h : Booked σ) (hnone : ∀ t ∈ σ.tasks, t.status.unfinished = false) :
    Booked (cancelAgent σ) := by
  unfold ChatTurns.cancelAgent
  rw [Rows.update_of_none _ hnone]
  exact h

/-! ## Calls of several transactions -/

theorem findCall_eq (h : findCall σ callId = some c) :
    c ∈ σ.calls ∧ c.id = callId :=
  ⟨mem_of_find?_eq_some h, by simpa using find?_some h⟩

theorem keyed_openCall (h : Rows.Keyed Call.id calls)
    (hnew : (calls.all fun c => c.id != callId) = true) (work : Work) :
    Rows.Keyed Call.id (calls ++ [⟨callId, work⟩]) := by
  apply h.insert
  intro c hc heq
  have hne := all_eq_true.mp hnew c hc
  rw [show c.id = callId from heq] at hne
  simp at hne

theorem Booked.cancelTask (h : Booked σ) (taskId : Nat) (supports : Bool)
    (hnew : (σ.calls.all fun c => c.id != callId) = true) : Booked (cancelTask σ callId taskId supports) := by
  unfold ChatTurns.cancelTask
  cases hfound : guarded σ.tasks taskId fun t => t.status.unfinished with
  | none => exact h
  | some t =>
    obtain ⟨ht, _, hunfinished⟩ := guarded_eq hfound
    obtain ⟨hsound, hgrows, _⟩ := h.endOne ht hunfinished (keeps_setStatus .cancelled) (fun _ => rfl)
      (fun _ => rfl)
    refine ⟨?_, keyed_openCall h.calls hnew _, h.handled_of_grows hgrows ?_⟩
    · exact (hsound.setCalls _ _).perm (owedBy_append σ.calls ⟨callId, .finalize t.id supports⟩).symm
    · intro c hc taskIds hwork
      rcases mem_append.mp hc with hold | hlast
      · exact hold
      · rw [mem_singleton.mp hlast] at hwork
        cases hwork

theorem Booked.finalize (h : Booked σ) (now callId messageId : Nat) :
    Booked (finalize σ now callId messageId) := by
  unfold ChatTurns.finalize
  split
  · rename_i id taskId supports hfound
    obtain ⟨hc, hid⟩ := findCall_eq hfound
    have hcallId : id = callId := hid
    subst hcallId
    split
    · exact h
    · rename_i t htask
      have ht : t ∈ σ.tasks := mem_of_find?_eq_some htask
      have htid : t.id = taskId := by simpa using find?_some htask
      subst htid
      have hsound : Sound (closeCall σ id) (t.id :: owedBy (closeCall σ id).calls) :=
        (h.books.perm (owedBy_close h.calls hc)).setCalls _ _
      have hkeyed : Rows.Keyed Call.id (closeCall σ id).calls := h.calls.sublist (filter_sublist.map _)
      have hrest : ∀ σ', σ'.calls = (closeCall σ id).calls → Rows.Grows Holds σ.tasks σ'.tasks →
          Sound σ' (owedBy (closeCall σ id).calls) → Booked σ' := by
        intro σ' hcalls hgrows hsound'
        refine ⟨hcalls ▸ hsound', hcalls ▸ hkeyed, h.handled_of_grows hgrows ?_⟩
        intro c hc' _ _
        rw [hcalls] at hc'
        exact (mem_filter.mp hc').1
      unfold finalizeCancelled
      split
      · split
        · refine hrest _ ?_ ?_ (hsound.defer ht)
          · rfl
          · apply grows_update (keeps_finalizeDeferred true)
            intro u _ _
            exact .inr ⟨rfl, rfl, rfl, rfl⟩
        · have hframe := deleteInput_frame (handsOver_toResponse t.chatInputTaskId) (closeCall σ id)
          apply hrest _ hframe.2 _ (hsound.withdraw ht (handsOver_toResponse _))
          rw [hframe.1]
          exact Rows.Grows.refl Holds.refl _
      · exact hrest _ rfl (Rows.Grows.refl Holds.refl _) (hsound.answer now messageId)
  · exact h

theorem Sweep.unfinished {kind : Sweep} (h : kind.takes tasks t = true) :
    t.status.unfinished = true := by
  cases kind with
  | timeout =>
    simp only [Sweep.takes, Bool.or_eq_true] at h
    rcases h with hdispatched | hrunning
    · exact unfinished_of_eq hdispatched rfl
    · exact unfinished_of_eq hrunning rfl
  | runtimeOffline | runtimeRecovery => exact unfinished_of_active h
  | queuedExpired =>
    simp only [Sweep.takes, Bool.and_eq_true] at h
    exact unfinished_of_eq h.1 rfl
  | reconnectTimeout =>
    simp only [Sweep.takes, Bool.and_eq_true] at h
    exact unfinished_of_eq h.1 rfl

theorem Booked.sweep (h : Booked σ) (kind : Sweep) (selected : List Nat)
    (hnew : (σ.calls.all fun c => c.id != callId) = true)
    (heligible : ∀ t ∈ kind.victims σ.tasks selected, retryEligible kind.reason t = true) :
    Booked (sweep σ callId kind selected) := by
  unfold ChatTurns.sweep
  dsimp only
  split
  · exact h
  · have hrows : (kind.victims σ.tasks selected).Sublist σ.tasks := filter_sublist
    have hunfinished : ∀ t ∈ kind.victims σ.tasks selected, t.status.unfinished = true := by
      intro t ht
      have hp := (mem_filter.mp ht).2
      rw [Bool.and_eq_true] at hp
      exact Sweep.unfinished hp.2
    obtain ⟨hsound, hgrows, hmem⟩ := h.endRows hrows hunfinished (keeps_fail kind.reason) (fun _ => rfl)
      (fun _ => rfl)
    refine ⟨?_, keyed_openCall h.calls hnew _, ?_⟩
    · exact (hsound.setCalls _ _).perm
        (owedBy_append σ.calls ⟨callId, .handle ((kind.victims σ.tasks selected).map Task.id)⟩).symm
    · intro c hc taskIds hwork taskId hmem'
      rcases mem_append.mp hc with hold | hlast
      · obtain ⟨t, ht, hid, hretriable⟩ := h.handled c hold taskIds hwork taskId hmem'
        obtain ⟨t', ht', hid', hholds⟩ := hgrows t ht
        exact ⟨t', ht', hid'.trans hid, hholds hretriable⟩
      · rw [mem_singleton.mp hlast] at hwork
        cases hwork
        obtain ⟨t, ht, hid⟩ := mem_map.mp hmem'
        exact ⟨Task.fail kind.reason t, hmem t ht, hid, rfl, kind.reason, rfl, heligible t ht⟩

theorem Booked.handleNext (h : Booked σ) (now callId : Nat)
    (hnew : (σ.tasks.all fun t => t.id != newTaskId) = true) :
    Booked (handleNext σ now callId newTaskId) := by
  unfold ChatTurns.handleNext
  split
  · rename_i id taskId rest hfound
    obtain ⟨hc, hid⟩ := findCall_eq hfound
    have hcallId : id = callId := hid
    subst hcallId
    obtain ⟨t, ht, htid, hfailed, reason, hreason, heligible⟩ :=
      h.handled _ hc (taskId :: rest) rfl taskId mem_cons_self
    subst htid
    have hfind : findTask σ.tasks t.id = some t := by
      unfold findTask
      cases hcase : σ.tasks.find? fun u => u.id == t.id with
      | none => simpa using find?_eq_none.mp hcase t ht
      | some u =>
        rw [h.books.keyed.eq_of_key (mem_of_find?_eq_some hcase) ht (by simpa using find?_some hcase)]
    rw [hfind]
    dsimp only
    have hretry : ∀ left : State,
        maybeRetry left now newTaskId t = addTask left (retryChild t reason now newTaskId) := by
      intro left
      unfold maybeRetry
      rw [hreason]
      exact if_pos ⟨hfailed, heligible⟩
    have hgrows : Rows.Grows Holds σ.tasks (σ.tasks ++ [retryChild t reason now newTaskId]) :=
      Rows.Grows.insert Holds.refl _ _
    -- either way the call owes the rest of its rows
    have hleft : ∀ calls : List Call, (owedBy calls).Perm (rest ++ owedBy (σ.calls.filter fun c => c.id ≠ id)) →
        Rows.Keyed Call.id calls →
        (∀ c ∈ calls, ∀ taskIds, c.work = .handle taskIds → c ∈ σ.calls ∨ taskIds = rest) →
        Booked (addTask { σ with calls := calls } (retryChild t reason now newTaskId)) := by
      intro calls hperm hkeyed hwork
      have howed : Sound { σ with calls := calls } (t.id :: owedBy calls) :=
        (h.books.perm ((owedBy_close h.calls hc).trans (List.Perm.cons t.id hperm.symm))).setCalls _ _
      refine ⟨howed.retry ht hfailed rfl rfl reason now (notMem_of_all hnew), hkeyed, ?_⟩
      intro c hc' taskIds hhandle taskId hmem
      have hhandled : ∃ u ∈ σ.tasks, u.id = taskId ∧ Retriable u := by
        rcases hwork c hc' taskIds hhandle with hold | heq
        · exact h.handled c hold taskIds hhandle taskId hmem
        · exact h.handled _ hc (t.id :: rest) rfl taskId (mem_cons_of_mem _ (heq ▸ hmem))
      obtain ⟨u, hu, huid, hretriable⟩ := hhandled
      obtain ⟨u', hu', huid', hholds⟩ := hgrows u hu
      exact ⟨u', hu', huid'.trans huid, hholds hretriable⟩
    split
    · rename_i hempty
      rw [hretry]
      apply hleft
      · rw [isEmpty_iff.mp hempty]
        exact List.Perm.refl _
      · exact h.calls.sublist (filter_sublist.map _)
      · intro c hc' _ _
        exact .inl (mem_filter.mp hc').1
    · rw [hretry]
      apply hleft
      · exact owedBy_setWork h.calls hc (.handle rest)
      · exact h.calls.update _ fun _ _ => rfl
      · intro c hc' taskIds hhandle
        rcases Rows.mem_update.mp hc' with ⟨old, _, _, rfl⟩ | ⟨hold, _⟩
        · right
          cases hhandle
          rfl
        · exact .inl hold
  · exact h

/-! ## Runs -/

theorem booked_step (h : Booked σ) (a : Action) (hsettles : Settles σ a) : Booked (step σ a).2 := by
  unfold step
  split
  · rename_i hfresh
    unfold Action.fresh at hfresh
    rw [Bool.and_eq_true, Bool.and_eq_true] at hfresh
    obtain ⟨⟨htask, _⟩, hcall⟩ := hfresh
    cases a with
    | send now taskId messageId => exact h.send now messageId htask
    | claim now locked => exact h.claim now locked
    | start taskId =>
      refine h.moveTask (f := fun t => { t with status := .running, started := true })
        ⟨fun _ => rfl, fun _ => rfl, fun _ => rfl⟩ (fun _ => rfl) ?_
      intro t hguard
      right
      rw [Bool.or_eq_true] at hguard
      rcases hguard with hdispatched | hwaiting
      · exact ⟨rfl, unfinished_of_eq hdispatched rfl⟩
      · exact ⟨rfl, unfinished_of_eq hwaiting rfl⟩
    | waitLocalDirectory taskId =>
      apply h.moveTask (keeps_setStatus _) fun _ => rfl
      intro t hguard
      exact .inr ⟨rfl, unfinished_of_eq hguard rfl⟩
    | promote taskId =>
      apply h.moveTask (keeps_setStatus _) fun _ => rfl
      intro t hguard
      exact .inr ⟨rfl, unfinished_of_eq hguard rfl⟩
    | taskMessage taskId =>
      refine h.moveTask (f := fun t => { t with taskMessages := t.taskMessages + 1 })
        ⟨fun _ => rfl, fun _ => rfl, fun _ => rfl⟩ (fun _ => rfl) ?_
      intro t _
      exact .inl ⟨rfl, rfl, rfl, rfl⟩
    | complete now taskId messageId => exact h.complete now taskId messageId
    | fail now taskId newTaskId messageId reason => exact h.failTask now taskId messageId reason htask
    | cancel callId taskId supports => exact h.cancelTask taskId supports hcall
    | finalize now callId messageId => exact h.finalize now callId messageId
    | cancelQueued taskId action => exact h.cancelQueued taskId action
    | cancelFollowUps => exact h.cancelFollowUps
    | cancelAgent => exact h.cancelAgent hsettles
    | finalizeDeferred now taskId messageId => exact h.finalizeDeferred now taskId messageId
    | sweep callId kind selected => exact h.sweep kind selected hcall hsettles
    | handleNext now callId newTaskId => exact h.handleNext now callId htask
  · exact h

/-- In every run whose sweeps take only rows that are retried and whose cancellations
of all tasks find none, an ended turn has one outcome wherever no call is open. -/
theorem one_outcome {c : Config State Action Unit}
    (h : Reach step (fun c a => Settles c.state a) (Machine.start start) c) (hidle : c.state.calls = [])
    {t : Task} (ht : t ∈ c.state.tasks) (hended : t.status.unfinished = false)
    (hlast : IsLast c.state.tasks t.id) : (ledger c.state t).Settled := by
  have hbooked : Booked c.state := by
    apply h.invariant (I := fun c => Booked c.state)
    · intro c a hsettles hc
      exact booked_step hc a hsettles
    · exact booked_start
  apply hbooked.books.settled t ht hlast
  rintro (hunfinished | howed)
  · rw [hended] at hunfinished
    cases hunfinished
  · rw [hidle] at howed
    cases howed

/-- A run that loses its runtime, is retried, and is then cancelled with a deferred
settlement. -/
def retriedRun : List Action :=
  [.send 1 1 1, .claim 2 [], .sweep 1 .timeout [1], .handleNext 3 1 2, .claim 4 [], .start 2, .cancel 1 2 true,
    .finalize 5 1 2]

theorem one_outcome_retriedRun :
    ∃ t ∈ (exec step (Machine.start start) retriedRun).state.tasks, t.id = 2 ∧
      (ledger (exec step (Machine.start start) retriedRun).state t).Settled := by
  have hended : ∀ u ∈ (exec step (Machine.start start) retriedRun).state.tasks, u.id = 2 →
      u.status.unfinished = false ∧ IsLast (exec step (Machine.start start) retriedRun).state.tasks u.id := by
    decide +kernel
  have hretry : ∃ t ∈ (exec step (Machine.start start) retriedRun).state.tasks, t.id = 2 := by
    decide +kernel
  obtain ⟨t, ht, hid⟩ := hretry
  exact ⟨t, ht, hid, one_outcome (reach_exec (by decide +kernel)) (by decide +kernel) ht (hended t ht hid).1
    (hended t ht hid).2⟩

/-- A turn that expires in the queue, and one that ends with all tasks of its agent. -/
def expiredRun : List Action := [.send 1 1 1, .sweep 1 .queuedExpired [1], .handleNext 2 1 2]

def agentCancelledRun : List Action := [.send 1 1 1, .claim 2 [], .start 1, .cancelAgent]

/-- A run leads to a turn that ended without an outcome. -/
def Unanswered (actions : List Action) : Prop :=
  ∃ c : Config State Action Unit, Reach step (fun _ _ => True) (Machine.start start) c ∧
    c = exec step (Machine.start start) actions ∧ c.state.calls = [] ∧
    ∃ t ∈ c.state.tasks, t.status.unfinished = false ∧ IsLast c.state.tasks t.id ∧ ¬ (ledger c.state t).Settled

theorem unanswered_turns : Unanswered expiredRun ∧ Unanswered agentCancelledRun := by
  constructor
  · refine ⟨_, reach_exec (allAllowed_of_forall (fun _ _ => trivial) _ expiredRun), rfl, ?_⟩
    decide +kernel
  · refine ⟨_, reach_exec (allAllowed_of_forall (fun _ _ => trivial) _ agentCancelledRun), rfl, ?_⟩
    decide +kernel

end ClawMessenger.Ports.ChatTurns
