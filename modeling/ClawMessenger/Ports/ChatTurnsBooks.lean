import ClawMessenger.Ports.ChatTurns

/-!
# The books of ended turns

A turn is an input batch with the chain of tasks that run it: the task of its send
and its retries.  `ledger` is what the transcript says of the last task of a chain:
its assistant rows, the user rows of the batch, what was handed back or removed, and
the marker of a deferred settlement.

Where a task ends, its turn is owed an outcome until the same transaction or a later
one of the same call writes it.  `Sound σ owed` is the invariant with the list of
those tasks: `Sound.close` ends rows and adds to the list, and each of the four ways
to settle a turn (`answer`, `withdraw`, `defer`, `retry`) takes one entry off.
-/

namespace ClawMessenger.Ports.ChatTurns

open Verified List
open TaskQueue (Status)

/-! ## What a turn has -/

structure Ledger where
  answers : Nat
  inputs : Nat
  returns : Nat
  marker : Bool
  deriving DecidableEq, Repr

def isAnswer (taskId : Nat) (m : Message) : Bool := m.role == .assistant && m.taskId == taskId

/-- The batches that were handed back or removed. -/
def withdrawals (σ : State) : List Nat := σ.drafts ++ σ.handedBack ++ σ.removed

def ledger (σ : State) (t : Task) : Ledger where
  answers := σ.messages.countP (isAnswer t.id)
  inputs := σ.messages.countP (isInput t.chatInputTaskId)
  returns := (withdrawals σ).count t.chatInputTaskId
  marker := t.finalizeDeferred

/-- The input is there, and nothing else. -/
def Ledger.awaiting : Ledger := ⟨0, 1, 0, false⟩

/-- One assistant row. -/
def Ledger.answered : Ledger := ⟨1, 1, 0, false⟩

/-- The input was deleted, and handed back or removed. -/
def Ledger.withdrawn : Ledger := ⟨0, 0, 1, false⟩

/-- The settlement is deferred. -/
def Ledger.deferred : Ledger := ⟨0, 1, 0, true⟩

def Ledger.Settled (l : Ledger) : Prop := l = .answered ∨ l = .withdrawn ∨ l = .deferred

instance (l : Ledger) : Decidable l.Settled := inferInstanceAs (Decidable (_ ∨ _ ∨ _))

/-- The task has no retry child. -/
def IsLast (tasks : List Task) (taskId : Nat) : Prop := some taskId ∉ tasks.map Task.parentTaskId

instance (tasks : List Task) (taskId : Nat) : Decidable (IsLast tasks taskId) := inferInstanceAs (Decidable (¬ _))

/-- The turn may yet run, or a call is to settle it. -/
def Awaits (owed : List Nat) (t : Task) : Prop := t.status.unfinished = true ∨ t.id ∈ owed

/-! ## The invariant -/

structure Sound (σ : State) (owed : List Nat) : Prop where
  keyed : Rows.Keyed Task.id σ.tasks
  owners : ∀ t ∈ σ.tasks, t.chatInputTaskId ∈ σ.tasks.map Task.id
  parents : ∀ t ∈ σ.tasks, ∀ p, t.parentTaskId = some p → p ∈ σ.tasks.map Task.id
  retried : ∀ t ∈ σ.tasks, ¬ IsLast σ.tasks t.id → t.status = .failed
  authors : ∀ m ∈ σ.messages, m.taskId ∈ σ.tasks.map Task.id
  batches : ∀ owner ∈ withdrawals σ, owner ∈ σ.tasks.map Task.id
  linear : ∀ t ∈ σ.tasks, ∀ u ∈ σ.tasks, IsLast σ.tasks t.id → IsLast σ.tasks u.id →
    t.chatInputTaskId = u.chatInputTaskId → t = u
  nodup : owed.Nodup
  debts : ∀ taskId ∈ owed, taskId ∈ σ.tasks.map Task.id ∧ IsLast σ.tasks taskId ∧
    ∀ t ∈ σ.tasks, t.id = taskId → t.status.unfinished = false
  marked : ∀ t ∈ σ.tasks, t.finalizeDeferred = true → IsLast σ.tasks t.id
  awaited : ∀ t ∈ σ.tasks, IsLast σ.tasks t.id → Awaits owed t → ledger σ t = .awaiting
  settled : ∀ t ∈ σ.tasks, IsLast σ.tasks t.id → ¬ Awaits owed t → (ledger σ t).Settled

theorem sound_start : Sound start [] := by
  constructor <;> simp [start, withdrawals, Rows.Keyed]

variable {owed : List Nat} {σ : State} {messages : List Message} {f : Task → Task} {t : Task}
  {taskId : Nat}

variable {owed' : List Nat}

theorem Sound.perm (h : Sound σ owed) (hperm : owed.Perm owed') :
    Sound σ owed' := by
  have hawaits : ∀ t, Awaits owed' t ↔ Awaits owed t := by
    intro t
    unfold Awaits
    rw [hperm.mem_iff]
  refine ⟨h.keyed, h.owners, h.parents, h.retried, h.authors, h.batches, h.linear, hperm.nodup_iff.mp h.nodup, ?_,
    h.marked, ?_, ?_⟩
  · intro taskId hmem
    exact h.debts taskId (hperm.mem_iff.mpr hmem)
  · intro t ht hlast hawait
    exact h.awaited t ht hlast ((hawaits t).mp hawait)
  · intro t ht hlast hawait
    exact h.settled t ht hlast fun hold => hawait ((hawaits t).mpr hold)

/-- Neither the calls nor the ids enter the invariant. -/
theorem Sound.setCalls (h : Sound σ owed) (calls : List Call) (issued : List Nat) :
    Sound { σ with calls := calls, issued := issued } owed :=
  ⟨h.keyed, h.owners, h.parents, h.retried, h.authors, h.batches, h.linear, h.nodup, h.debts, h.marked, h.awaited,
    h.settled⟩

/-! ## User and assistant rows -/

/-- The same rows at other times. -/
def Retimed (messages messages' : List Message) : Prop :=
  messages'.map (fun m => (m.role, m.taskId)) = messages.map fun m => (m.role, m.taskId)

variable {messages' : List Message}

theorem Retimed.countP (h : Retimed messages messages') (q : Role × Nat → Bool) :
    messages'.countP (fun m => q (m.role, m.taskId)) = messages.countP fun m => q (m.role, m.taskId) := by
  have hmap : ∀ l : List Message,
      l.countP (fun m => q (m.role, m.taskId)) = (l.map fun m => (m.role, m.taskId)).countP q := by
    intro l
    rw [countP_map]
    rfl
  rw [hmap, hmap, h]

theorem Retimed.authors (h : Retimed messages messages') {m : Message} (hm : m ∈ messages') :
    ∃ m' ∈ messages, m'.taskId = m.taskId := by
  have hpair : (m.role, m.taskId) ∈ messages'.map fun m => (m.role, m.taskId) := mem_map.mpr ⟨m, hm, rfl⟩
  rw [h] at hpair
  obtain ⟨m', hm', heq⟩ := mem_map.mp hpair
  exact ⟨m', hm', congrArg Prod.snd heq⟩

theorem retimed_map {f : Message → Message} (hf : ∀ m, (f m).role = m.role ∧ (f m).taskId = m.taskId)
    (messages : List Message) : Retimed messages (messages.map f) := by
  unfold Retimed
  rw [map_map]
  apply map_congr_left
  intro m _
  show ((f m).role, (f m).taskId) = (m.role, m.taskId)
  rw [(hf m).1, (hf m).2]

theorem retimed_reanchorNext (tasks : List Task) (messages : List Message) (now : Nat) :
    Retimed messages (reanchorNext tasks messages now) := by
  apply retimed_map
  intro m
  split
  · exact ⟨rfl, rfl⟩
  · exact ⟨rfl, rfl⟩

theorem retimed_reanchorClaimed (tasks : List Task) (messages : List Message) (taskId now : Nat) :
    Retimed messages (reanchorClaimed tasks messages taskId now) := by
  apply retimed_map
  intro m
  split
  · split
    · exact ⟨rfl, rfl⟩
    · unfold Message.reanchor
      split <;> exact ⟨rfl, rfl⟩
  · exact ⟨rfl, rfl⟩

theorem Sound.retime (h : Sound σ owed)
    (hsame : Retimed σ.messages messages) : Sound { σ with messages := messages } owed := by
  have hledger : ∀ t, ledger { σ with messages := messages } t = ledger σ t := by
    intro t
    have hanswers := hsame.countP fun row => row.1 == .assistant && row.2 == t.id
    have hinputs := hsame.countP fun row => row.1 == .user && row.2 == t.chatInputTaskId
    unfold ledger
    congr 1
  refine ⟨h.keyed, h.owners, h.parents, h.retried, ?_, h.batches, h.linear, h.nodup, h.debts, h.marked, ?_, ?_⟩
  · intro m hm
    obtain ⟨m', hm', heq⟩ := hsame.authors hm
    exact heq ▸ h.authors m' hm'
  · intro t ht hlast hawait
    rw [hledger]
    exact h.awaited t ht hlast hawait
  · intro t ht hlast hawait
    rw [hledger]
    exact h.settled t ht hlast hawait

/-! ## Rows that are updated -/

/-- The columns of a row that say what it is. -/
structure Keeps (f : Task → Task) : Prop where
  id : ∀ t, (f t).id = t.id
  parent : ∀ t, (f t).parentTaskId = t.parentTaskId
  owner : ∀ t, (f t).chatInputTaskId = t.chatInputTaskId

theorem isLast_update (hf : Keeps f) (tasks : List Task) (p : Task → Bool) (taskId : Nat) :
    IsLast (Rows.update tasks p f) taskId ↔ IsLast tasks taskId := by
  unfold IsLast
  rw [Rows.Keyed.map_update p fun t _ => hf.parent t]

variable {p : Task → Bool}

/-- An update that leaves the markers alone; what it ends becomes owed. -/
theorem Sound.update (h : Sound σ owed) (hf : Keeps f)
    (hmarker : ∀ t, (f t).finalizeDeferred = t.finalizeDeferred)
    (hguard : ∀ t ∈ σ.tasks, p t = true → t.status = .failed → (f t).status = .failed)
    (hnodup : owed'.Nodup)
    (howed : ∀ taskId ∈ owed', taskId ∈ σ.tasks.map Task.id ∧ IsLast σ.tasks taskId)
    (hended : ∀ t ∈ σ.tasks, t.id ∈ owed' → (if p t then f t else t).status.unfinished = false)
    (hawaits : ∀ t ∈ σ.tasks, Awaits owed' (if p t then f t else t) ↔ Awaits owed t) :
    Sound { σ with tasks := Rows.update σ.tasks p f } owed' := by
  have hids : (Rows.update σ.tasks p f).map Task.id = σ.tasks.map Task.id :=
    Rows.Keyed.map_update p fun t _ => hf.id t
  have hold : ∀ t' ∈ Rows.update σ.tasks p f, ∃ t ∈ σ.tasks, t' = if p t then f t else t := by
    intro t' ht'
    obtain ⟨t, ht, rfl⟩ := mem_map.mp ht'
    exact ⟨t, ht, rfl⟩
  have hid : ∀ t, (if p t then f t else t).id = t.id := by
    intro t
    split
    · exact hf.id t
    · rfl
  have hparent : ∀ t, (if p t then f t else t).parentTaskId = t.parentTaskId := by
    intro t
    split
    · exact hf.parent t
    · rfl
  have howner : ∀ t, (if p t then f t else t).chatInputTaskId = t.chatInputTaskId := by
    intro t
    split
    · exact hf.owner t
    · rfl
  have hmark : ∀ t, (if p t then f t else t).finalizeDeferred = t.finalizeDeferred := by
    intro t
    split
    · exact hmarker t
    · rfl
  have hledger : ∀ t, ledger { σ with tasks := Rows.update σ.tasks p f } (if p t then f t else t) = ledger σ t := by
    intro t
    unfold ledger
    rw [hid, howner, hmark]
    rfl
  refine ⟨h.keyed.update _ fun t _ => hf.id t, ?_, ?_, ?_, ?_, ?_, ?_, hnodup, ?_, ?_, ?_, ?_⟩
  · intro t' ht'
    obtain ⟨t, ht, rfl⟩ := hold t' ht'
    rw [hids, howner]
    exact h.owners t ht
  · intro t' ht' parent hparent'
    obtain ⟨t, ht, rfl⟩ := hold t' ht'
    rw [hparent] at hparent'
    rw [hids]
    exact h.parents t ht parent hparent'
  · intro t' ht' hnot
    obtain ⟨t, ht, rfl⟩ := hold t' ht'
    rw [isLast_update hf, hid] at hnot
    have hfailed := h.retried t ht hnot
    by_cases hp : p t = true
    · rw [if_pos hp]
      exact hguard t ht hp hfailed
    · rw [if_neg hp]
      exact hfailed
  · intro m hm
    rw [hids]
    exact h.authors m hm
  · intro owner howner'
    rw [hids]
    exact h.batches owner howner'
  · intro t' ht' u' hu' hlast hlast' heq
    obtain ⟨t, ht, rfl⟩ := hold t' ht'
    obtain ⟨u, hu, rfl⟩ := hold u' hu'
    rw [isLast_update hf, hid] at hlast hlast'
    rw [howner, howner] at heq
    rw [h.linear t ht u hu hlast hlast' heq]
  · intro taskId hmem
    refine ⟨?_, ?_, ?_⟩
    · show _ ∈ (Rows.update σ.tasks p f).map Task.id
      rw [hids]
      exact (howed taskId hmem).1
    · rw [isLast_update hf]
      exact (howed taskId hmem).2
    · intro t' ht' heq
      obtain ⟨t, ht, rfl⟩ := hold t' ht'
      rw [hid] at heq
      exact hended t ht (heq ▸ hmem)
  · intro t' ht' hmarked
    obtain ⟨t, ht, rfl⟩ := hold t' ht'
    rw [hmark] at hmarked
    rw [isLast_update hf, hid]
    exact h.marked t ht hmarked
  · intro t' ht' hlast hawait
    obtain ⟨t, ht, rfl⟩ := hold t' ht'
    rw [isLast_update hf, hid] at hlast
    rw [hledger]
    exact h.awaited t ht hlast ((hawaits t ht).mp hawait)
  · intro t' ht' hlast hawait
    obtain ⟨t, ht, rfl⟩ := hold t' ht'
    rw [isLast_update hf, hid] at hlast
    rw [hledger]
    exact h.settled t ht hlast fun hbefore => hawait ((hawaits t ht).mpr hbefore)

section

variable (h : Sound σ owed) (ht : t ∈ σ.tasks) (hunfinished : t.status.unfinished = true)
include h ht hunfinished

/-- Unfinished rows have no retry. -/
theorem Sound.isLast_of_unfinished : IsLast σ.tasks t.id := by
  by_contra hnot
  rw [h.retried t ht hnot] at hunfinished
  cases hunfinished

/-- A row that is not over is not owed. -/
theorem Sound.notMem_of_unfinished : t.id ∉ owed := by
  intro hmem
  rw [(h.debts t.id hmem).2.2 t ht rfl] at hunfinished
  cases hunfinished

end

variable {rows : List Nat}

theorem awaits_append : Awaits (rows ++ owed) t ↔ t.id ∈ rows ∨ Awaits owed t := by
  unfold Awaits
  rw [mem_append]
  exact or_left_comm

/-- Rows end. -/
theorem Sound.close (h : Sound σ owed) (hf : Keeps f)
    (hmarker : ∀ t, (f t).finalizeDeferred = t.finalizeDeferred) (hrows : rows.Nodup)
    (hp : ∀ t ∈ σ.tasks, p t = true ↔ t.id ∈ rows)
    (hknown : ∀ taskId ∈ rows, taskId ∈ σ.tasks.map Task.id)
    (hunfinished : ∀ t ∈ σ.tasks, t.id ∈ rows → t.status.unfinished = true)
    (hended : ∀ t, (f t).status.unfinished = false) :
    Sound { σ with tasks := Rows.update σ.tasks p f } (rows ++ owed) := by
  apply h.update hf hmarker
  · intro t ht hpt hfailed
    have hopen := hunfinished t ht ((hp t ht).mp hpt)
    rw [hfailed] at hopen
    cases hopen
  · rw [nodup_append]
    refine ⟨hrows, h.nodup, ?_⟩
    intro a ha b hb heq
    obtain ⟨t, ht, hid⟩ := mem_map.mp (hknown a ha)
    rw [← hid] at ha
    exact h.notMem_of_unfinished ht (hunfinished t ht ha) (hid ▸ heq ▸ hb)
  · intro taskId hmem
    rcases mem_append.mp hmem with hrow | hold
    · obtain ⟨t, ht, hid⟩ := mem_map.mp (hknown taskId hrow)
      rw [← hid] at hrow ⊢
      exact ⟨mem_map.mpr ⟨t, ht, rfl⟩, h.isLast_of_unfinished ht (hunfinished t ht hrow)⟩
    · exact ⟨(h.debts taskId hold).1, (h.debts taskId hold).2.1⟩
  · intro t ht hmem
    by_cases hpt : p t = true
    · rw [if_pos hpt]
      exact hended t
    · rw [if_neg hpt]
      rcases mem_append.mp hmem with hrow | hold
      · exact absurd ((hp t ht).mpr hrow) hpt
      · exact (h.debts t.id hold).2.2 t ht rfl
  · intro t ht
    rw [awaits_append]
    by_cases hpt : p t = true
    · rw [if_pos hpt, hf.id]
      have hrow := (hp t ht).mp hpt
      constructor
      · intro _
        exact .inl (hunfinished t ht hrow)
      · intro _
        exact .inl hrow
    · rw [if_neg hpt]
      constructor
      · rintro (hrow | hold)
        · exact absurd ((hp t ht).mpr hrow) hpt
        · exact hold
      · exact .inr

/-- A row ends. -/
theorem Sound.closeOne (h : Sound σ owed) (ht : t ∈ σ.tasks)
    (hunfinished : t.status.unfinished = true) (hf : Keeps f)
    (hmarker : ∀ t, (f t).finalizeDeferred = t.finalizeDeferred)
    (hended : ∀ t, (f t).status.unfinished = false) :
    Sound (setTask σ t.id f) (t.id :: owed) := by
  refine h.close hf hmarker (nodup_singleton t.id) ?_ ?_ ?_ hended
  · intro u _
    simp
  · intro taskId hmem
    rw [mem_singleton.mp hmem]
    exact mem_map.mpr ⟨t, ht, rfl⟩
  · intro u hu hmem
    rw [h.keyed.eq_of_key hu ht (mem_singleton.mp hmem)]
    exact hunfinished

/-- Rows that run on, or are over already. -/
theorem Sound.move (h : Sound σ owed) (hf : Keeps f)
    (hmarker : ∀ t, (f t).finalizeDeferred = t.finalizeDeferred)
    (hstatus : ∀ t ∈ σ.tasks, p t = true → (f t).status = t.status ∨ ((f t).status.unfinished = true ∧ t.status.unfinished = true)) :
    Sound { σ with tasks := Rows.update σ.tasks p f } owed := by
  have hsame : ∀ t ∈ σ.tasks, p t = true → (f t).status.unfinished = t.status.unfinished := by
    intro t ht hpt
    rcases hstatus t ht hpt with heq | ⟨hnew, hold⟩
    · rw [heq]
    · rw [hnew, hold]
  apply h.update hf hmarker _ h.nodup
  · intro taskId hmem
    exact ⟨(h.debts taskId hmem).1, (h.debts taskId hmem).2.1⟩
  · intro t ht hmem
    have hended := (h.debts t.id hmem).2.2 t ht rfl
    split
    · rename_i hpt
      rw [hsame t ht hpt]
      exact hended
    · exact hended
  · intro t ht
    split
    · rename_i hpt
      unfold Awaits
      rw [hsame t ht hpt, hf.id]
    · rfl
  · intro t ht hpt hfailed
    rcases hstatus t ht hpt with heq | ⟨_, hold⟩
    · rw [heq, hfailed]
    · rw [hfailed] at hold
      cases hold

/-! ## An owed turn is settled -/

theorem Sound.owed_head (h : Sound σ (taskId :: owed)) :
    taskId ∉ owed ∧ owed.Nodup := nodup_cons.mp h.nodup

theorem Sound.awaits_head (h : Sound σ (taskId :: owed)) (ht : t ∈ σ.tasks)
    (hid : t.id = taskId) : ¬ Awaits owed t ∧ IsLast σ.tasks t.id ∧ ledger σ t = .awaiting := by
  obtain ⟨_, hlast, hended⟩ := h.debts taskId mem_cons_self
  refine ⟨?_, hid ▸ hlast, h.awaited t ht (hid ▸ hlast) (.inr (hid ▸ mem_cons_self))⟩
  rintro (hunfinished | hmem)
  · rw [hended t ht hid] at hunfinished
    cases hunfinished
  · exact h.owed_head.1 (hid ▸ hmem)

theorem awaits_tail (hid : t.id ≠ taskId) :
    Awaits (taskId :: owed) t ↔ Awaits owed t := by
  unfold Awaits
  rw [mem_cons, or_iff_right hid]

/-- The ledger of one owed turn is settled, the others are as they were. -/
theorem Sound.settle {σ' : State} (h : Sound σ (taskId :: owed)) (htasks : σ'.tasks = σ.tasks)
    (hauthors : ∀ m ∈ σ'.messages, m.taskId ∈ σ.tasks.map Task.id)
    (hbatches : ∀ owner ∈ withdrawals σ', owner ∈ σ.tasks.map Task.id)
    (hother : ∀ t ∈ σ.tasks, IsLast σ.tasks t.id → t.id ≠ taskId → ledger σ' t = ledger σ t)
    (hself : ∀ t ∈ σ.tasks, t.id = taskId → (ledger σ' t).Settled) : Sound σ' owed := by
  obtain ⟨tasks', messages', drafts', handedBack', removed', calls', issued'⟩ := σ'
  subst htasks
  refine ⟨h.keyed, h.owners, h.parents, h.retried, hauthors, hbatches, h.linear, h.owed_head.2, ?_, h.marked, ?_, ?_⟩
  · intro id hmem
    exact h.debts id (mem_cons_of_mem _ hmem)
  · intro t ht hlast hawait
    have hid : t.id ≠ taskId := fun hid => (h.awaits_head ht hid).1 hawait
    rw [hother t ht hlast hid]
    exact h.awaited t ht hlast ((awaits_tail hid).mpr hawait)
  · intro t ht hlast hawait
    by_cases hid : t.id = taskId
    · exact hself t ht hid
    · rw [hother t ht hlast hid]
      exact h.settled t ht hlast fun hbefore => hawait ((awaits_tail hid).mp hbefore)

theorem Sound.answer (h : Sound σ (taskId :: owed))
    (now messageId : Nat) : Sound (createAssistant σ now messageId taskId) owed := by
  have hrow : Sound (addMessage σ ⟨messageId, now, .assistant, taskId⟩) owed := by
    refine h.settle ?_ ?_ ?_ ?_ ?_
    · rfl
    · intro m hm
      rcases mem_append.mp hm with hold | hnew
      · exact h.authors m hold
      · rw [mem_singleton.mp hnew]
        exact (h.debts taskId mem_cons_self).1
    · exact h.batches
    · intro t _ _ hid
      have hne : ¬ taskId = t.id := fun heq => hid heq.symm
      simp [ledger, addMessage, countP_append, isAnswer, isInput, hne]
      rfl
    · intro t ht hid
      left
      have hledger := (h.awaits_head ht hid).2.2
      simp only [ledger, Ledger.awaiting, Ledger.mk.injEq] at hledger
      simp [ledger, Ledger.answered, addMessage, countP_append, isAnswer, isInput, hid] at hledger ⊢
      exact hledger
  exact hrow.retime (retimed_reanchorNext _ _ _)

/-- The batch is handed over, and nothing else changes. -/
structure HandsOver (owner : Nat) (f : State → State) : Prop where
  tasks : ∀ σ, (f σ).tasks = σ.tasks
  messages : ∀ σ, (f σ).messages = σ.messages
  calls : ∀ σ, (f σ).calls = σ.calls
  issued : ∀ σ, (f σ).issued = σ.issued
  count : ∀ σ o, (withdrawals (f σ)).count o = (withdrawals σ).count o + if o = owner then 1 else 0

theorem handsOver_toDrafts (owner : Nat) : HandsOver owner (toDrafts owner) := by
  refine ⟨fun _ => rfl, fun _ => rfl, fun _ => rfl, fun _ => rfl, ?_⟩
  intro σ o
  simp only [withdrawals, toDrafts, count_append, count_singleton, beq_iff_eq, eq_comm (a := owner)]
  omega

theorem handsOver_toResponse (owner : Nat) : HandsOver owner (toResponse owner) := by
  refine ⟨fun _ => rfl, fun _ => rfl, fun _ => rfl, fun _ => rfl, ?_⟩
  intro σ o
  simp only [withdrawals, toResponse, count_append, count_singleton, beq_iff_eq, eq_comm (a := owner)]
  omega

theorem handsOver_toRemoved (owner : Nat) : HandsOver owner (toRemoved owner) := by
  refine ⟨fun _ => rfl, fun _ => rfl, fun _ => rfl, fun _ => rfl, ?_⟩
  intro σ o
  simp only [withdrawals, toRemoved, count_append, count_singleton, beq_iff_eq, eq_comm (a := owner)]
  omega

theorem countP_deleteInput (messages : List Message) (owner : Nat) (q : Message → Bool)
    (hq : ∀ m, q m = true → isInput owner m = false) :
    (messages.filter fun m => !isInput owner m).countP q = messages.countP q := by
  rw [countP_filter]
  apply countP_congr
  intro m _
  constructor
  · intro h
    rw [Bool.and_eq_true] at h
    exact h.1
  · intro h
    rw [Bool.and_eq_true, hq m h]
    exact ⟨h, rfl⟩

theorem Sound.withdraw (h : Sound σ (t.id :: owed)) (ht : t ∈ σ.tasks) {handBack : State → State}
    (hhand : HandsOver t.chatInputTaskId handBack) :
    Sound (deleteInput σ t.chatInputTaskId handBack) owed := by
  obtain ⟨_, hlast, hledger⟩ := h.awaits_head ht rfl
  simp only [ledger, Ledger.awaiting, Ledger.mk.injEq] at hledger
  obtain ⟨hanswers, hinputs, hreturns, hmarker⟩ := hledger
  have hany : σ.messages.any (isInput t.chatInputTaskId) = true := by
    obtain ⟨m, hm, hinput⟩ := countP_pos_iff.mp (by omega : 0 < σ.messages.countP (isInput t.chatInputTaskId))
    exact any_eq_true.mpr ⟨m, hm, hinput⟩
  unfold deleteInput
  rw [if_pos hany]
  refine h.settle ?_ ?_ ?_ ?_ ?_
  · exact hhand.tasks _
  · intro m hm
    rw [hhand.messages] at hm
    exact h.authors m (mem_filter.mp hm).1
  · intro owner howner
    have hpos := count_pos_iff.mpr howner
    rw [hhand.count] at hpos
    by_cases heq : owner = t.chatInputTaskId
    · rw [heq]
      exact h.owners t ht
    · rw [if_neg heq] at hpos
      exact h.batches owner (count_pos_iff.mp hpos)
  · intro u hu hlast' hid
    have howner : u.chatInputTaskId ≠ t.chatInputTaskId := by
      intro heq
      exact hid (congrArg Task.id (h.linear u hu t ht hlast' hlast heq))
    unfold ledger
    rw [hhand.messages, hhand.count, if_neg howner, countP_deleteInput, countP_deleteInput]
    · rfl
    · intro m hm
      simp only [isInput, Bool.and_eq_true, beq_iff_eq] at hm
      simp [isInput, hm.2, howner]
    · intro m hm
      simp only [isAnswer, Bool.and_eq_true, beq_iff_eq] at hm
      simp [isInput, hm.1]
  · intro u hu hid
    have heq : u = t := h.keyed.eq_of_key hu ht hid
    subst heq
    right
    left
    unfold ledger Ledger.withdrawn
    rw [hhand.messages, hhand.count, if_pos rfl, hmarker, countP_deleteInput, hanswers]
    · congr 1
      · rw [countP_eq_zero]
        intro m hm
        have := (mem_filter.mp hm).2
        simpa using this
      · show count u.chatInputTaskId (withdrawals σ) + 1 = 1
        rw [hreturns]
    · intro m hm
      simp only [isAnswer, Bool.and_eq_true, beq_iff_eq] at hm
      simp [isInput, hm.1]

/-- The marker of an ended turn is set, or taken. -/
theorem Sound.mark (h : Sound σ owed) (ht : t ∈ σ.tasks) (marker : Bool)
    (hlast : IsLast σ.tasks t.id) (hended : t.status.unfinished = false) (hnodup : owed'.Nodup)
    (hother : ∀ taskId, taskId ≠ t.id → (taskId ∈ owed' ↔ taskId ∈ owed))
    (hawaited : t.id ∈ owed' → { ledger σ t with marker := marker } = Ledger.awaiting)
    (hsettled : t.id ∉ owed' → Ledger.Settled { ledger σ t with marker := marker }) :
    Sound (setTask σ t.id fun t => { t with finalizeDeferred := marker }) owed' := by
  have hkeeps : Keeps fun t => { t with finalizeDeferred := marker } := ⟨fun _ => rfl, fun _ => rfl, fun _ => rfl⟩
  have hids : (updateTask σ.tasks t.id fun t => { t with finalizeDeferred := marker }).map Task.id =
      σ.tasks.map Task.id := Rows.Keyed.map_update _ fun _ _ => rfl
  have hlast_iff := isLast_update hkeeps σ.tasks fun u => u.id == t.id
  have hold : ∀ t' ∈ updateTask σ.tasks t.id (fun t => { t with finalizeDeferred := marker }),
      t' = { t with finalizeDeferred := marker } ∨ (t' ∈ σ.tasks ∧ t'.id ≠ t.id) := by
    intro t' ht'
    rcases Rows.mem_update.mp ht' with ⟨old, hmem, hp, rfl⟩ | ⟨hmem, hp⟩
    · left
      rw [h.keyed.eq_of_key hmem ht (by simpa using hp)]
    · exact .inr ⟨hmem, by simpa using hp⟩
  have hrow : ∀ t' ∈ updateTask σ.tasks t.id (fun t => { t with finalizeDeferred := marker }),
      ∃ u ∈ σ.tasks, t'.id = u.id ∧ t'.status = u.status ∧ t'.parentTaskId = u.parentTaskId ∧
        t'.chatInputTaskId = u.chatInputTaskId := by
    intro t' ht'
    rcases hold t' ht' with rfl | ⟨hmem, _⟩
    · exact ⟨t, ht, rfl, rfl, rfl, rfl⟩
    · exact ⟨t', hmem, rfl, rfl, rfl, rfl⟩
  refine ⟨h.keyed.update _ fun _ _ => rfl, ?_, ?_, ?_, ?_, ?_, ?_, hnodup, ?_, ?_, ?_, ?_⟩
  · intro t' ht'
    obtain ⟨u, hu, _, _, _, howner⟩ := hrow t' ht'
    show _ ∈ (updateTask σ.tasks t.id _).map Task.id
    rw [hids, howner]
    exact h.owners u hu
  · intro t' ht' parent hparent
    obtain ⟨u, hu, _, _, hparent', _⟩ := hrow t' ht'
    show _ ∈ (updateTask σ.tasks t.id _).map Task.id
    rw [hids]
    exact h.parents u hu parent (hparent' ▸ hparent)
  · intro t' ht' hnot
    obtain ⟨u, hu, hid, hstatus, _, _⟩ := hrow t' ht'
    rw [hstatus]
    apply h.retried u hu
    intro hlast'
    exact hnot ((hlast_iff t'.id).mpr (hid ▸ hlast'))
  · intro m hm
    show _ ∈ (updateTask σ.tasks t.id _).map Task.id
    rw [hids]
    exact h.authors m hm
  · intro owner howner
    show _ ∈ (updateTask σ.tasks t.id _).map Task.id
    rw [hids]
    exact h.batches owner howner
  · intro t' ht' u' hu' hlast_t hlast_u howner
    have hlast_t' := (hlast_iff t'.id).mp hlast_t
    have hlast_u' := (hlast_iff u'.id).mp hlast_u
    rcases hold t' ht' with rfl | ⟨hmem, hne⟩
    · rcases hold u' hu' with rfl | ⟨hmem', hne'⟩
      · rfl
      · exact absurd (congrArg Task.id (h.linear u' hmem' t ht hlast_u' hlast_t' howner.symm)) hne'
    · rcases hold u' hu' with rfl | ⟨hmem', _⟩
      · exact absurd (congrArg Task.id (h.linear t' hmem t ht hlast_t' hlast_u' howner)) hne
      · exact h.linear t' hmem u' hmem' hlast_t' hlast_u' howner
  · intro taskId hmem
    by_cases heq : taskId = t.id
    · subst heq
      refine ⟨?_, (hlast_iff t.id).mpr hlast, ?_⟩
      · show _ ∈ (updateTask σ.tasks t.id _).map Task.id
        rw [hids]
        exact mem_map.mpr ⟨t, ht, rfl⟩
      · intro t' ht' hid
        rcases hold t' ht' with rfl | ⟨_, hne⟩
        · exact hended
        · exact absurd hid hne
    · obtain ⟨hid, hlast', hended'⟩ := h.debts taskId ((hother taskId heq).mp hmem)
      refine ⟨?_, (hlast_iff taskId).mpr hlast', ?_⟩
      · show _ ∈ (updateTask σ.tasks t.id _).map Task.id
        rw [hids]
        exact hid
      · intro t' ht' hid'
        rcases hold t' ht' with rfl | ⟨hmem', _⟩
        · exact absurd hid'.symm heq
        · exact hended' t' hmem' hid'
  · intro t' ht' hmarked
    apply (hlast_iff t'.id).mpr
    rcases hold t' ht' with rfl | ⟨hmem, _⟩
    · exact hlast
    · exact h.marked t' hmem hmarked
  · intro t' ht' hlast' hawait
    rcases hold t' ht' with rfl | ⟨hmem, hne⟩
    · apply hawaited
      rcases hawait with hunfinished | hmem
      · rw [show ({ t with finalizeDeferred := marker } : Task).status = t.status from rfl, hended] at hunfinished
        cases hunfinished
      · exact hmem
    · apply h.awaited t' hmem ((hlast_iff t'.id).mp hlast')
      exact hawait.imp_right (hother t'.id hne).mp
  · intro t' ht' hlast' hawait
    rcases hold t' ht' with rfl | ⟨hmem, hne⟩
    · exact hsettled fun hmem => hawait (.inr hmem)
    · apply h.settled t' hmem ((hlast_iff t'.id).mp hlast')
      exact fun hbefore => hawait (hbefore.imp_right (hother t'.id hne).mpr)

/-- The settlement is deferred. -/
theorem Sound.defer (h : Sound σ (t.id :: owed)) (ht : t ∈ σ.tasks) :
    Sound (setTask σ t.id fun t => { t with finalizeDeferred := true }) owed := by
  obtain ⟨_, hlast, hledger⟩ := h.awaits_head ht rfl
  apply h.mark ht true hlast ((h.debts t.id mem_cons_self).2.2 t ht rfl) h.owed_head.2
  · intro taskId hne
    rw [mem_cons, or_iff_right hne]
  · intro hmem
    exact absurd hmem h.owed_head.1
  · intro _
    right
    right
    rw [hledger]
    rfl

/-- A deferred settlement is taken up. -/
theorem Sound.takeUp (h : Sound σ owed) (ht : t ∈ σ.tasks) (hmarked : t.finalizeDeferred = true) :
    Sound (setTask σ t.id fun t => { t with finalizeDeferred := false }) (t.id :: owed) := by
  have hlast := h.marked t ht hmarked
  have hnot : ¬ Awaits owed t := by
    intro hawait
    have hledger := congrArg Ledger.marker (h.awaited t ht hlast hawait)
    rw [show (ledger σ t).marker = t.finalizeDeferred from rfl, hmarked] at hledger
    cases hledger
  have hledger : ledger σ t = .deferred := by
    rcases h.settled t ht hlast hnot with heq | heq | heq
    · have hmarker := congrArg Ledger.marker heq
      rw [show (ledger σ t).marker = t.finalizeDeferred from rfl, hmarked] at hmarker
      cases hmarker
    · have hmarker := congrArg Ledger.marker heq
      rw [show (ledger σ t).marker = t.finalizeDeferred from rfl, hmarked] at hmarker
      cases hmarker
    · exact heq
  have hended : t.status.unfinished = false := by
    by_contra hunfinished
    exact hnot (.inl (by simpa using hunfinished))
  apply h.mark ht false hlast hended
  · exact nodup_cons.mpr ⟨fun hmem => hnot (.inr hmem), h.nodup⟩
  · intro taskId hne
    rw [mem_cons, or_iff_right hne]
  · intro _
    rw [hledger]
    rfl
  · intro hmem
    exact absurd mem_cons_self hmem

/-! ## Rows that are added -/

theorem isLast_append (tasks : List Task) (t : Task) (taskId : Nat) :
    IsLast (tasks ++ [t]) taskId ↔ IsLast tasks taskId ∧ t.parentTaskId ≠ some taskId := by
  unfold IsLast
  rw [map_append, mem_append, not_or, map_singleton, mem_singleton]
  exact and_congr_right fun _ => ne_comm

theorem Sound.isLast_of_new (h : Sound σ owed)
    (hnew : taskId ∉ σ.tasks.map Task.id) : IsLast σ.tasks taskId := by
  intro hmem
  obtain ⟨t, ht, hparent⟩ := mem_map.mp hmem
  exact hnew (h.parents t ht taskId hparent)

theorem Sound.answers_of_new (h : Sound σ owed) (hnew : taskId ∉ σ.tasks.map Task.id) :
    σ.messages.countP (isAnswer taskId) = 0 ∧ σ.messages.countP (isInput taskId) = 0 ∧
      (withdrawals σ).count taskId = 0 := by
  refine ⟨?_, ?_, ?_⟩
  · rw [countP_eq_zero]
    intro m hm hanswer
    simp only [isAnswer, Bool.and_eq_true, beq_iff_eq] at hanswer
    exact hnew (hanswer.2 ▸ h.authors m hm)
  · rw [countP_eq_zero]
    intro m hm hinput
    simp only [isInput, Bool.and_eq_true, beq_iff_eq] at hinput
    exact hnew (hinput.2 ▸ h.authors m hm)
  · rw [count_eq_zero]
    exact fun hmem => hnew (h.batches taskId hmem)

/-- A row joins that has no outcome yet; where it is a retry, it takes the place of its
parent. -/
theorem Sound.add {child : Task} (h : Sound σ owed) (owed' : List Nat)
    (hnew : child.id ∉ σ.tasks.map Task.id) (hnodup : owed'.Nodup)
    (howed : ∀ taskId ∈ owed', taskId ∈ owed ∧ child.parentTaskId ≠ some taskId)
    (hother : ∀ t ∈ σ.tasks, child.parentTaskId ≠ some t.id → (t.id ∈ owed' ↔ t.id ∈ owed))
    (howner : child.chatInputTaskId ∈ σ.tasks.map Task.id ∨ child.chatInputTaskId = child.id)
    (hparent : ∀ t ∈ σ.tasks, child.parentTaskId = some t.id → t.status = .failed ∧ t.finalizeDeferred = false)
    (hknown : ∀ p, child.parentTaskId = some p → p ∈ σ.tasks.map Task.id)
    (hauthors : ∀ m ∈ messages, m.taskId ∈ σ.tasks.map Task.id ∨ m.taskId = child.id)
    (hunfinished : child.status.unfinished = true)
    (hsame : ∀ t ∈ σ.tasks, messages.countP (isAnswer t.id) = σ.messages.countP (isAnswer t.id) ∧
      messages.countP (isInput t.chatInputTaskId) = σ.messages.countP (isInput t.chatInputTaskId))
    (hlinear : ∀ t ∈ σ.tasks, IsLast σ.tasks t.id → child.parentTaskId ≠ some t.id →
      t.chatInputTaskId ≠ child.chatInputTaskId)
    (hledger : ledger { addTask σ child with messages := messages } child = .awaiting) :
    Sound { addTask σ child with messages := messages } owed' := by
  have hids : ∀ taskId, taskId ∈ σ.tasks.map Task.id → taskId ∈ (σ.tasks ++ [child]).map Task.id := by
    intro taskId hmem
    rw [map_append]
    exact mem_append_left _ hmem
  have hself : child.id ∈ (σ.tasks ++ [child]).map Task.id := by simp
  have hsame_ledger : ∀ t ∈ σ.tasks, ledger { addTask σ child with messages := messages } t = ledger σ t := by
    intro t ht
    unfold ledger
    rw [show ({ addTask σ child with messages := messages } : State).messages = messages from rfl, (hsame t ht).1,
      (hsame t ht).2]
    rfl
  have hlast_child : IsLast (σ.tasks ++ [child]) child.id := by
    rw [isLast_append]
    exact ⟨h.isLast_of_new hnew, fun hself_parent => hnew (hknown _ hself_parent)⟩
  refine ⟨?_, ?_, ?_, ?_, ?_, ?_, ?_, hnodup, ?_, ?_, ?_, ?_⟩
  · apply h.keyed.insert
    intro old hold heq
    exact hnew (heq ▸ mem_map.mpr ⟨old, hold, rfl⟩)
  · intro t ht
    rcases mem_append.mp ht with hold | hlast
    · exact hids _ (h.owners t hold)
    · rw [mem_singleton.mp hlast]
      rcases howner with hmem | heq
      · exact hids _ hmem
      · exact heq ▸ hself
  · intro t ht p hp
    rcases mem_append.mp ht with hold | hlast
    · exact hids _ (h.parents t hold p hp)
    · rw [mem_singleton.mp hlast] at hp
      exact hids _ (hknown p hp)
  · intro t ht hnot
    rcases mem_append.mp ht with hold | hlast
    · rw [show ({ addTask σ child with messages := messages } : State).tasks = σ.tasks ++ [child] from rfl,
        isLast_append, not_and_or, not_not] at hnot
      rcases hnot with hbefore | hchild
      · exact h.retried t hold hbefore
      · exact (hparent t hold hchild).1
    · rw [mem_singleton.mp hlast] at hnot
      exact absurd hlast_child hnot
  · intro m hm
    rcases hauthors m hm with hmem | heq
    · exact hids _ hmem
    · exact heq ▸ hself
  · intro owner hmem
    exact hids _ (h.batches owner hmem)
  · intro t ht u hu hlast_t hlast_u heq
    rw [show ({ addTask σ child with messages := messages } : State).tasks = σ.tasks ++ [child] from rfl,
      isLast_append] at hlast_t hlast_u
    rcases mem_append.mp ht with hold | hlast
    · rcases mem_append.mp hu with hold' | hlast'
      · exact h.linear t hold u hold' hlast_t.1 hlast_u.1 heq
      · rw [mem_singleton.mp hlast'] at heq
        exact absurd heq (hlinear t hold hlast_t.1 hlast_t.2)
    · rcases mem_append.mp hu with hold' | hlast'
      · rw [mem_singleton.mp hlast] at heq
        exact absurd heq.symm (hlinear u hold' hlast_u.1 hlast_u.2)
      · rw [mem_singleton.mp hlast, mem_singleton.mp hlast']
  · intro taskId hmem
    obtain ⟨hold, hne⟩ := howed taskId hmem
    obtain ⟨hid, hlast, hended⟩ := h.debts taskId hold
    refine ⟨hids _ hid, (isLast_append _ _ _).mpr ⟨hlast, hne⟩, ?_⟩
    intro t ht heq
    rcases mem_append.mp ht with hmem' | hlast'
    · exact hended t hmem' heq
    · rw [mem_singleton.mp hlast'] at heq
      exact absurd (heq ▸ hid) hnew
  · intro t ht hmarked
    apply (isLast_append _ _ _).mpr
    rcases mem_append.mp ht with hold | hlast
    · refine ⟨h.marked t hold hmarked, ?_⟩
      intro hchild
      rw [(hparent t hold hchild).2] at hmarked
      cases hmarked
    · rw [mem_singleton.mp hlast] at hmarked
      have hmarker := congrArg Ledger.marker hledger
      rw [show (ledger { addTask σ child with messages := messages } child).marker = child.finalizeDeferred from rfl,
        hmarked] at hmarker
      cases hmarker
  · intro t ht hlast_t hawait
    rcases mem_append.mp ht with hold | hlast
    · obtain ⟨hlast', hne⟩ := (isLast_append _ _ _).mp hlast_t
      rw [hsame_ledger t hold]
      exact h.awaited t hold hlast' (hawait.imp_right (hother t hold hne).mp)
    · rw [mem_singleton.mp hlast]
      exact hledger
  · intro t ht hlast_t hawait
    rcases mem_append.mp ht with hold | hlast
    · obtain ⟨hlast', hne⟩ := (isLast_append _ _ _).mp hlast_t
      rw [hsame_ledger t hold]
      exact h.settled t hold hlast' fun hbefore => hawait (hbefore.imp_right (hother t hold hne).mpr)
    · rw [mem_singleton.mp hlast] at hawait
      exact absurd (.inl hunfinished) hawait

theorem unfinished_retryChild (t : Task) (reason : String) (now newTaskId : Nat) :
    (retryChild t reason now newTaskId).status.unfinished = true := by
  unfold retryChild
  dsimp only
  split <;> rfl

theorem Sound.retry (h : Sound σ (t.id :: owed)) (ht : t ∈ σ.tasks) (hfailed : t.status = .failed)
    {p : Task} (hid : p.id = t.id) (howner : p.chatInputTaskId = t.chatInputTaskId)
    (reason : String) (now : Nat) {newTaskId : Nat} (hnew : newTaskId ∉ σ.tasks.map Task.id) :
    Sound (addTask σ (retryChild p reason now newTaskId)) owed := by
  obtain ⟨_, hlast, hledger⟩ := h.awaits_head ht rfl
  have hparent : (retryChild p reason now newTaskId).parentTaskId = some t.id := congrArg some hid
  simp only [ledger, Ledger.awaiting, Ledger.mk.injEq] at hledger
  have hmem_t : t.id ∈ σ.tasks.map Task.id := mem_map.mpr ⟨t, ht, rfl⟩
  refine h.add owed hnew h.owed_head.2 ?_ ?_ ?_ ?_ ?_ ?_ (unfinished_retryChild p reason now newTaskId) ?_ ?_ ?_
  · intro taskId hmem
    refine ⟨mem_cons_of_mem _ hmem, ?_⟩
    rw [hparent]
    intro heq
    exact h.owed_head.1 (Option.some.inj heq ▸ hmem)
  · intro u _ hne
    rw [hparent] at hne
    rw [mem_cons, or_iff_right fun heq => hne (congrArg some heq.symm)]
  · left
    rw [show (retryChild p reason now newTaskId).chatInputTaskId = p.chatInputTaskId from rfl, howner]
    exact h.owners t ht
  · intro u hu heq
    rw [hparent] at heq
    rw [h.keyed.eq_of_key hu ht (Option.some.inj heq).symm]
    exact ⟨hfailed, hledger.2.2.2⟩
  · intro parent heq
    rw [hparent] at heq
    exact Option.some.inj heq ▸ hmem_t
  · intro m hm
    exact .inl (h.authors m hm)
  · intro u _
    exact ⟨rfl, rfl⟩
  · intro u hu hlast_u hne heq
    rw [hparent] at hne
    have hsame := h.linear u hu t ht hlast_u hlast (heq.trans howner)
    exact hne (congrArg (some ∘ Task.id) hsame).symm
  · unfold ledger Ledger.awaiting
    rw [show (retryChild p reason now newTaskId).chatInputTaskId = t.chatInputTaskId from howner]
    congr 1
    · exact (h.answers_of_new hnew).1
    · exact hledger.2.1
    · exact hledger.2.2.1

theorem Sound.send (h : Sound σ owed) (now messageId : Nat)
    (hnew : taskId ∉ σ.tasks.map Task.id) : Sound (send σ now taskId messageId) owed := by
  obtain ⟨hanswers, hinputs, hreturns⟩ := h.answers_of_new hnew
  have hne : ∀ t ∈ σ.tasks, taskId ≠ t.id := fun t ht heq => hnew (heq ▸ mem_map.mpr ⟨t, ht, rfl⟩)
  have howner : ∀ t ∈ σ.tasks, taskId ≠ t.chatInputTaskId := fun t ht heq => hnew (heq ▸ h.owners t ht)
  have hadded : Sound { addTask σ (directTask now taskId) with
      messages := σ.messages ++ [⟨messageId, now, .user, taskId⟩] } owed := by
    refine h.add owed hnew h.nodup ?_ ?_ (.inr rfl) ?_ ?_ ?_ rfl ?_ ?_ ?_
    · intro id hmem
      refine ⟨hmem, ?_⟩
      intro heq
      cases heq
    · intro t _ _
      exact Iff.rfl
    · intro t _ heq
      cases heq
    · intro p heq
      cases heq
    · intro m hm
      rcases mem_append.mp hm with hold | hlast
      · exact .inl (h.authors m hold)
      · rw [mem_singleton.mp hlast]
        exact .inr rfl
    · intro t ht
      simp [countP_append, isAnswer, isInput, howner t ht]
    · intro t ht _ _ heq
      exact howner t ht heq.symm
    · unfold ledger Ledger.awaiting
      congr 1
      · show countP (isAnswer taskId) (σ.messages ++ [(⟨messageId, now, .user, taskId⟩ : Message)]) = 0
        rw [countP_append, hanswers]
        simp [isAnswer]
      · show countP (isInput taskId) (σ.messages ++ [(⟨messageId, now, .user, taskId⟩ : Message)]) = 1
        rw [countP_append, hinputs]
        simp [isInput]
  exact hadded.setCalls σ.calls (σ.issued ++ [messageId])

end ClawMessenger.Ports.ChatTurns
