import ClawMessenger.Ports.ChatTurnsSettled
import ClawMessenger.Verified.SortPairs

/-!
# The order of the transcript

A row of the transcript moves only while it is the input of a queued turn: the outcome
before it, or its own claim, puts it behind the newest visible row.  `Effect` says so
of every step, and what a step can write: a row of a turn is written only while the
turn is live, that is unfinished, marked, or owed an outcome by an open call.

So a turn that is over when another is first claimed stands before it for ever
(`Behind.of_claim`), and rows that are in place keep their order (`place_kept`).  A
turn that is settled after a later one was claimed stands behind it, and a follow-up
that a cancellation makes the head is out of place until it is moved.
-/

namespace ClawMessenger.Ports.ChatTurns

open Verified List
open TaskQueue (Status)

/-! ## What a step may do -/

/-- The turn may be written to. -/
def Live (σ : State) (t : Task) : Prop :=
  t.status.unfinished = true ∨ t.finalizeDeferred = true ∨ t.id ∈ owedBy σ.calls

/-- The row is the input of a turn that has not been claimed. -/
def QueuedInput (tasks : List Task) (m : Message) : Prop :=
  m.role = .user ∧ ∃ t ∈ tasks, t.id = m.taskId ∧ t.status = .queued ∧ t.chatInputTaskId = t.id

/-- The row of a task after a step. -/
structure Lives (σ : State) (t t' : Task) : Prop where
  id : t'.id = t.id
  owner : t'.chatInputTaskId = t.chatInputTaskId
  live : t'.status.unfinished = true ∨ t'.finalizeDeferred = true → Live σ t
  queued : t'.status = .queued → t.status = .queued ∨ t.status = .deferred
  deferred : t'.status = .deferred → t.status = .deferred

/-- A row that a step inserts: a new turn, or a retry in a live one. -/
structure Born (σ : State) (t' : Task) : Prop where
  new : t'.id ∉ σ.tasks.map Task.id
  owner : t'.chatInputTaskId = t'.id ∨ ∃ t ∈ σ.tasks, t.chatInputTaskId = t'.chatInputTaskId ∧ Live σ t
  deferred : t'.status = .deferred → t'.chatInputTaskId ≠ t'.id

/-- The input of a queued turn moves down. -/
structure Moves (σ : State) (m m' : Message) : Prop where
  id : m'.id = m.id
  role : m'.role = m.role
  taskId : m'.taskId = m.taskId
  later : m.createdAt ≤ m'.createdAt
  queued : QueuedInput σ.tasks m

/-- A row that a step writes: the input of a new turn, or an outcome of a live one. -/
structure Written (σ : State) (m' : Message) : Prop where
  new : m'.id ∉ σ.issued
  turn : (m'.role = .user ∧ m'.taskId ∉ σ.tasks.map Task.id) ∨
    (m'.role = .assistant ∧ ∃ t ∈ σ.tasks, t.id = m'.taskId ∧ Live σ t)

structure Rewrites (σ σ' : State) : Prop where
  messages : ∀ m' ∈ σ'.messages, m' ∈ σ.messages ∨ (∃ m ∈ σ.messages, Moves σ m m') ∨ Written σ m'
  ids : (σ'.messages.map Message.id).Nodup
  issued : ∀ id ∈ σ.issued, id ∈ σ'.issued
  known : ∀ m' ∈ σ'.messages, m'.id ∈ σ'.issued

structure Effect (σ σ' : State) : Prop extends Rewrites σ σ' where
  keyed : Rows.Keyed Task.id σ'.tasks
  persist : ∀ taskId ∈ σ.tasks.map Task.id, taskId ∈ σ'.tasks.map Task.id
  tasks : ∀ t' ∈ σ'.tasks, (∃ t ∈ σ.tasks, Lives σ t t') ∨ Born σ t'
  calls : ∀ taskId ∈ owedBy σ'.calls, ∃ t ∈ σ.tasks, t.id = taskId ∧ Live σ t
  authors : ∀ m' ∈ σ'.messages, m'.taskId ∈ σ'.tasks.map Task.id

/-- What every step finds. -/
structure Tidy (σ : State) : Prop where
  keyed : Rows.Keyed Task.id σ.tasks
  owners : ∀ t ∈ σ.tasks, t.chatInputTaskId ∈ σ.tasks.map Task.id
  roots : ∀ t ∈ σ.tasks, t.status = .deferred → t.chatInputTaskId ≠ t.id
  calls : ∀ taskId ∈ owedBy σ.calls, taskId ∈ σ.tasks.map Task.id
  authors : ∀ m ∈ σ.messages, m.taskId ∈ σ.tasks.map Task.id
  messageIds : (σ.messages.map Message.id).Nodup
  known : ∀ m ∈ σ.messages, m.id ∈ σ.issued

theorem tidy_start : Tidy start := by
  constructor <;> simp [start, owedBy, Rows.Keyed]

variable {t : Task} {σ σ' : State} {tasks : List Task} {taskId messageId : Nat} {f : Task → Task}

theorem Lives.refl (ht : t.status.unfinished = true ∨ t.finalizeDeferred = true → Live σ t) :
    Lives σ t t := ⟨rfl, rfl, ht, .inl, fun h => h⟩

theorem lives_self (σ : State) (t : Task) : Lives σ t t := Lives.refl fun h => h.imp_right .inl

theorem Tidy.step (h : Tidy σ) (heffect : Effect σ σ') : Tidy σ' := by
  refine ⟨heffect.keyed, ?_, ?_, ?_, heffect.authors, heffect.ids, heffect.known⟩
  · intro t' ht'
    rcases heffect.tasks t' ht' with ⟨t, ht, hlives⟩ | hborn
    · rw [hlives.owner]
      exact heffect.persist _ (h.owners t ht)
    · rcases hborn.owner with hroot | ⟨t, ht, howner, _⟩
      · rw [hroot]
        exact mem_map.mpr ⟨t', ht', rfl⟩
      · rw [← howner]
        exact heffect.persist _ (h.owners t ht)
  · intro t' ht' hdeferred
    rcases heffect.tasks t' ht' with ⟨t, ht, hlives⟩ | hborn
    · rw [hlives.owner, hlives.id]
      exact h.roots t ht (hlives.deferred hdeferred)
    · exact hborn.deferred hdeferred
  · intro taskId hmem
    obtain ⟨t, ht, hid, _⟩ := heffect.calls taskId hmem
    rw [← hid]
    exact heffect.persist _ (mem_map.mpr ⟨t, ht, rfl⟩)

/-! ## Messages -/

variable {messages : List Message} {now : Nat} {m' : Message}

theorem reanchorNext_mem (h : m' ∈ reanchorNext tasks messages now) :
    m' ∈ messages ∨ ∃ m ∈ messages, m'.id = m.id ∧ m'.role = m.role ∧ m'.taskId = m.taskId ∧
      m.createdAt ≤ m'.createdAt ∧ QueuedInput tasks m := by
  obtain ⟨m, hm, heq⟩ := mem_map.mp h
  split at heq
  · rename_i hmoved
    subst heq
    rw [Bool.and_eq_true, Bool.and_eq_true, beq_iff_eq, decide_eq_true_eq] at hmoved
    obtain ⟨⟨hrole, hle⟩, hhead⟩ := hmoved
    obtain ⟨head, hhead, hid⟩ := (Option.any_eq_true _ _).mp hhead
    obtain ⟨hvisible, hqueued⟩ := Option.filter_eq_some_iff.mp hhead
    rw [Bool.and_eq_true, beq_iff_eq, beq_iff_eq] at hqueued
    have hmem := (mem_filter.mp (argmin_mem hvisible)).1
    right
    exact ⟨m, hm, rfl, rfl, rfl, Nat.le_succ_of_le hle, hrole, head, hmem, by simpa using hid, hqueued.1, hqueued.2⟩
  · left
    exact heq ▸ hm

theorem map_id_reanchorNext (tasks : List Task) (messages : List Message) (now : Nat) :
    (reanchorNext tasks messages now).map Message.id = messages.map Message.id := by
  unfold reanchorNext
  rw [map_map]
  apply map_congr_left
  intro m _
  dsimp only [Function.comp]
  split <;> rfl

theorem reanchor_spec (m prior : Message) (now : Nat) :
    (m.reanchor prior now).id = m.id ∧ (m.reanchor prior now).role = m.role ∧
      (m.reanchor prior now).taskId = m.taskId ∧ m.createdAt ≤ (m.reanchor prior now).createdAt ∧
      prior.createdAt < (m.reanchor prior now).createdAt := by
  unfold Message.reanchor
  split
  · refine ⟨rfl, rfl, rfl, ?_, ?_⟩
    · show m.createdAt ≤ max now (prior.createdAt + 1)
      omega
    · show prior.createdAt < max now (prior.createdAt + 1)
      omega
  · exact ⟨rfl, rfl, rfl, le_refl _, by omega⟩

theorem reanchorClaimed_mem (h : m' ∈ reanchorClaimed tasks messages taskId now) :
    m' ∈ messages ∨ ∃ m ∈ messages, m'.id = m.id ∧ m'.role = m.role ∧ m'.taskId = m.taskId ∧
      m.createdAt ≤ m'.createdAt ∧ m.role = .user ∧ m.taskId = taskId := by
  obtain ⟨m, hm, heq⟩ := mem_map.mp h
  split at heq
  · rename_i hinput
    rw [Bool.and_eq_true, beq_iff_eq, beq_iff_eq] at hinput
    right
    refine ⟨m, hm, ?_⟩
    split at heq
    · subst heq
      exact ⟨rfl, rfl, rfl, le_refl _, hinput⟩
    · rename_i prior _
      subst heq
      obtain ⟨hid, hrole, htask, hle, _⟩ := reanchor_spec m prior now
      exact ⟨hid, hrole, htask, hle, hinput⟩
  · left
    exact heq ▸ hm

theorem map_id_reanchorClaimed (tasks : List Task) (messages : List Message) (taskId now : Nat) :
    (reanchorClaimed tasks messages taskId now).map Message.id = messages.map Message.id := by
  unfold reanchorClaimed
  rw [map_map]
  apply map_congr_left
  intro m _
  dsimp only [Function.comp]
  split
  · split
    · rfl
    · exact (reanchor_spec m _ now).1
  · rfl

theorem Tidy.rewrites_none (h : Tidy σ) (hmessages : σ'.messages = σ.messages)
    (hissued : σ'.issued = σ.issued) : Rewrites σ σ' := by
  refine ⟨?_, hmessages ▸ h.messageIds, fun id hid => hissued ▸ hid, ?_⟩
  · intro m' hm'
    exact .inl (hmessages ▸ hm')
  · intro m' hm'
    rw [hissued]
    exact h.known m' (hmessages ▸ hm')

/-- The tasks have queued turns only where they were queued before. -/
theorem Tidy.queuedInput (h : Tidy σ) (htasks : ∀ t' ∈ tasks, ∃ t ∈ σ.tasks, Lives σ t t')
    {m : Message} (hm : QueuedInput tasks m) :
    QueuedInput σ.tasks m := by
  obtain ⟨hrole, t', ht', hid, hqueued, hroot⟩ := hm
  obtain ⟨t, ht, hlives⟩ := htasks t' ht'
  have hroot' : t.chatInputTaskId = t.id := by rw [← hlives.owner, ← hlives.id, hroot]
  refine ⟨hrole, t, ht, hlives.id ▸ hid, ?_, hroot'⟩
  rcases hlives.queued hqueued with heq | hdeferred
  · exact heq
  · exact absurd hroot' (h.roots t ht hdeferred)

theorem Tidy.rewrites_createAssistant (h : Tidy σ) (σ₁ : State)
    (hmessages : σ₁.messages = σ.messages) (hissued : σ₁.issued = σ.issued)
    (htasks : ∀ t' ∈ σ₁.tasks, ∃ t ∈ σ.tasks, Lives σ t t') (ht : t ∈ σ.tasks) (hlive : Live σ t)
    (now : Nat) (hnew : messageId ∉ σ.issued) :
    Rewrites σ (createAssistant σ₁ now messageId t.id) := by
  have hold : ∀ m ∈ σ₁.messages ++ [(⟨messageId, now, .assistant, t.id⟩ : Message)],
      m ∈ σ.messages ∨ m = ⟨messageId, now, .assistant, t.id⟩ := by
    intro m hm
    rw [hmessages] at hm
    exact (mem_append.mp hm).imp_right mem_singleton.mp
  refine ⟨?_, ?_, ?_, ?_⟩
  · intro m' hm'
    rcases reanchorNext_mem hm' with hsame | ⟨m, hm, hid, hrole, htask, hle, hqueued⟩
    · rcases hold m' hsame with hmem | rfl
      · exact .inl hmem
      · exact .inr (.inr ⟨hnew, .inr ⟨rfl, t, ht, rfl, hlive⟩⟩)
    · rcases hold m hm with hmem | rfl
      · exact .inr (.inl ⟨m, hmem, hid, hrole, htask, hle, h.queuedInput htasks hqueued⟩)
      · cases hqueued.1
  · show ((reanchorNext _ _ _).map Message.id).Nodup
    rw [map_id_reanchorNext]
    show ((σ₁.messages ++ [(⟨messageId, now, .assistant, t.id⟩ : Message)]).map Message.id).Nodup
    rw [hmessages, map_append, nodup_append]
    refine ⟨h.messageIds, nodup_singleton _, ?_⟩
    intro a ha b hb heq
    obtain ⟨m, hm, hid⟩ := mem_map.mp ha
    rw [map_singleton, mem_singleton] at hb
    apply hnew
    rw [show messageId = m.id from hb.symm.trans (heq.symm.trans hid.symm)]
    exact h.known m hm
  · intro id hid
    exact mem_append_left _ (hissued ▸ hid)
  · intro m' hm'
    have hmem : m'.id ∈ (reanchorNext σ₁.tasks (σ₁.messages ++ [⟨messageId, now, .assistant, t.id⟩]) now).map Message.id :=
      mem_map.mpr ⟨m', hm', rfl⟩
    rw [map_id_reanchorNext, hmessages, map_append, mem_append] at hmem
    show m'.id ∈ σ₁.issued ++ [messageId]
    rw [hissued]
    rcases hmem with hmem | hmem
    · obtain ⟨m, hm, hid⟩ := mem_map.mp hmem
      exact mem_append_left _ (hid ▸ h.known m hm)
    · exact mem_append_right _ hmem

variable {owner : Nat}

section

variable (h : Tidy σ) (σ₁ : State) (hmessages : σ₁.messages = σ.messages)
include h σ₁ hmessages

theorem Tidy.rewrites_deleteInput (hissued : σ₁.issued = σ.issued) {f : State → State}
    (hf : HandsOver owner f) :
    Rewrites σ (deleteInput σ₁ owner f) := by
  have hframe : (deleteInput σ₁ owner f).messages.Sublist σ.messages ∧ (deleteInput σ₁ owner f).issued = σ.issued := by
    unfold deleteInput
    split
    · refine ⟨?_, (hf.issued _).trans hissued⟩
      rw [hf.messages]
      exact hmessages ▸ filter_sublist
    · exact ⟨hmessages ▸ Sublist.refl _, hissued⟩
  refine ⟨?_, h.messageIds.sublist (hframe.1.map _), ?_, ?_⟩
  · intro m' hm'
    exact .inl (hframe.1.subset hm')
  · intro id hid
    rw [hframe.2]
    exact hid
  · intro m' hm'
    rw [hframe.2]
    exact h.known m' (hframe.1.subset hm')

theorem Tidy.authors_createAssistant (ht : t ∈ σ.tasks) (now messageId : Nat) :
    ∀ m' ∈ (createAssistant σ₁ now messageId t.id).messages, m'.taskId ∈ σ.tasks.map Task.id := by
  intro m' hm'
  obtain ⟨m, hm, heq⟩ := (retimed_reanchorNext _ _ _).authors hm'
  rw [← heq]
  rcases mem_append.mp hm with hold | hnew
  · exact h.authors m (hmessages ▸ hold)
  · rw [mem_singleton.mp hnew]
    exact mem_map.mpr ⟨t, ht, rfl⟩

theorem Tidy.authors_deleteInput {f : State → State} (hf : HandsOver owner f) :
    ∀ m' ∈ (deleteInput σ₁ owner f).messages, m'.taskId ∈ σ.tasks.map Task.id := by
  intro m' hm'
  unfold deleteInput at hm'
  split at hm'
  · rw [hf.messages, hmessages] at hm'
    exact h.authors m' (mem_filter.mp hm').1
  · exact h.authors m' (hmessages ▸ hm')

end

/-! ## Tasks -/

variable {p : Task → Bool}

section

variable (h : Tidy σ) (hf : Keeps f) (hlives : ∀ t ∈ σ.tasks, p t = true → Lives σ t (f t))
include h hf hlives

theorem Tidy.updated :
    Rows.Keyed Task.id (Rows.update σ.tasks p f) ∧
      (Rows.update σ.tasks p f).map Task.id = σ.tasks.map Task.id ∧
      ∀ t' ∈ Rows.update σ.tasks p f, ∃ t ∈ σ.tasks, Lives σ t t' := by
  refine ⟨h.keyed.update _ fun t _ => hf.id t, Rows.Keyed.map_update p fun t _ => hf.id t, ?_⟩
  intro t' ht'
  rcases Rows.mem_update.mp ht' with ⟨t, ht, hp, rfl⟩ | ⟨ht, _⟩
  · exact ⟨t, ht, hlives t ht hp⟩
  · exact ⟨t', ht, lives_self σ t'⟩

/-- A step that updates tasks and inserts none. -/
theorem Tidy.effect (htasks : σ'.tasks = Rows.update σ.tasks p f)
    (hcalls : ∀ taskId ∈ owedBy σ'.calls, ∃ t ∈ σ.tasks, t.id = taskId ∧ Live σ t)
    (hrewrites : Rewrites σ σ') (hauthors : ∀ m' ∈ σ'.messages, m'.taskId ∈ σ.tasks.map Task.id) :
    Effect σ σ' := by
  obtain ⟨hkeyed, hids, hfrom⟩ := h.updated hf hlives
  refine ⟨hrewrites, htasks ▸ hkeyed, ?_, ?_, hcalls, ?_⟩
  · intro taskId hmem
    rw [htasks, hids]
    exact hmem
  · intro t' ht'
    exact .inl (hfrom t' (htasks ▸ ht'))
  · intro m' hm'
    rw [htasks, hids]
    exact hauthors m' hm'

end

theorem Tidy.owed_live (h : Tidy σ) (hmem : taskId ∈ owedBy σ.calls) :
    ∃ t ∈ σ.tasks, t.id = taskId ∧ Live σ t := by
  obtain ⟨t, ht, hid⟩ := mem_map.mp (h.calls taskId hmem)
  exact ⟨t, ht, hid, .inr (.inr (hid ▸ hmem))⟩

theorem Tidy.unchanged (h : Tidy σ) :
    Rows.Keyed Task.id σ.tasks ∧ σ.tasks.map Task.id = σ.tasks.map Task.id ∧
      ∀ t' ∈ σ.tasks, ∃ t ∈ σ.tasks, Lives σ t t' :=
  ⟨h.keyed, rfl, fun t' ht' => ⟨t', ht', lives_self σ t'⟩⟩

/-- A step that inserts a task. -/
theorem Tidy.effect_add
    (hbase : Rows.Keyed Task.id tasks ∧ tasks.map Task.id = σ.tasks.map Task.id ∧
      ∀ t' ∈ tasks, ∃ t ∈ σ.tasks, Lives σ t t') {child : Task} (hborn : Born σ child)
    (htasks : σ'.tasks = tasks ++ [child])
    (hcalls : ∀ taskId ∈ owedBy σ'.calls, ∃ t ∈ σ.tasks, t.id = taskId ∧ Live σ t)
    (hrewrites : Rewrites σ σ')
    (hauthors : ∀ m' ∈ σ'.messages, m'.taskId ∈ σ.tasks.map Task.id ∨ m'.taskId = child.id) : Effect σ σ' := by
  obtain ⟨hkeyed, hids, hfrom⟩ := hbase
  refine ⟨hrewrites, ?_, ?_, ?_, hcalls, ?_⟩
  · rw [htasks]
    apply hkeyed.insert
    intro old hold heq
    apply hborn.new
    rw [← hids, ← heq]
    exact mem_map.mpr ⟨old, hold, rfl⟩
  · intro taskId hmem
    rw [htasks, map_append, hids]
    exact mem_append_left _ hmem
  · intro t' ht'
    rw [htasks] at ht'
    rcases mem_append.mp ht' with hold | hnew
    · exact .inl (hfrom t' hold)
    · rw [mem_singleton.mp hnew]
      exact .inr hborn
  · intro m' hm'
    rw [htasks, map_append, hids]
    rcases hauthors m' hm' with hold | hnew
    · exact mem_append_left _ hold
    · exact mem_append_right _ (by simp [hnew])

theorem Effect.refl (h : Tidy σ) : Effect σ σ :=
  ⟨h.rewrites_none rfl rfl, h.keyed, fun _ hmem => hmem, fun t' ht' => .inl ⟨t', ht', lives_self σ t'⟩,
    fun _ hmem => h.owed_live hmem, h.authors⟩

/-! ## The steps -/

theorem lives_ended (hf : Keeps f) (hmarker : ∀ t, (f t).finalizeDeferred = t.finalizeDeferred)
    (hended : ∀ t, (f t).status.unfinished = false) :
    Lives σ t (f t) := by
  refine ⟨hf.id t, hf.owner t, ?_, ?_, ?_⟩
  · rintro (hunfinished | hmarked)
    · rw [hended] at hunfinished
      cases hunfinished
    · exact .inr (.inl (hmarker t ▸ hmarked))
  · intro hqueued
    have h := hended t
    rw [hqueued] at h
    cases h
  · intro hdeferred
    have h := hended t
    rw [hdeferred] at h
    cases h

theorem lives_cancelled (σ : State) (t : Task) : Lives σ t (Task.setStatus .cancelled t) :=
  lives_ended (keeps_setStatus _) (fun _ => rfl) fun _ => rfl

theorem lives_failed (σ : State) (t : Task) (reason : String) : Lives σ t (Task.fail reason t) :=
  lives_ended (keeps_fail reason) (fun _ => rfl) fun _ => rfl

theorem Tidy.effect_send (h : Tidy σ) (now : Nat) (htask : taskId ∉ σ.tasks.map Task.id)
    (hmessage : messageId ∉ σ.issued) :
    Effect σ (send σ now taskId messageId) := by
  have hborn : Born σ (directTask now taskId) := ⟨htask, .inl rfl, fun hdeferred => by cases hdeferred⟩
  refine Tidy.effect_add h.unchanged hborn rfl (fun _ hmem => h.owed_live hmem) ⟨?_, ?_, ?_, ?_⟩ ?_
  · intro m' hm'
    rcases mem_append.mp hm' with hold | hnew
    · exact .inl hold
    · rw [mem_singleton.mp hnew]
      exact .inr (.inr ⟨hmessage, .inl ⟨rfl, htask⟩⟩)
  · show ((σ.messages ++ [(⟨messageId, now, .user, taskId⟩ : Message)]).map Message.id).Nodup
    rw [map_append, nodup_append]
    refine ⟨h.messageIds, nodup_singleton _, ?_⟩
    intro a ha b hb heq
    obtain ⟨m, hm, hid⟩ := mem_map.mp ha
    rw [map_singleton, mem_singleton] at hb
    apply hmessage
    rw [show messageId = m.id from hb.symm.trans (heq.symm.trans hid.symm)]
    exact h.known m hm
  · intro id hid
    exact mem_append_left _ hid
  · intro m' hm'
    rcases mem_append.mp hm' with hold | hnew
    · exact mem_append_left _ (h.known m' hold)
    · rw [mem_singleton.mp hnew]
      exact mem_append_right _ mem_cons_self
  · intro m' hm'
    rcases mem_append.mp hm' with hold | hnew
    · exact .inl (h.authors m' hold)
    · rw [mem_singleton.mp hnew]
      exact .inr rfl

theorem Tidy.effect_moveTask (h : Tidy σ) {id : Nat} {guard : Task → Bool} (hf : Keeps f)
    (hlives : ∀ t, guard t = true → Lives σ t (f t)) : Effect σ (moveTask σ id guard f) := by
  unfold moveTask
  cases hfound : guarded σ.tasks id guard with
  | none => exact Effect.refl h
  | some t =>
    obtain ⟨ht, _, hguard⟩ := guarded_eq hfound
    refine h.effect hf ?_ rfl (fun _ hmem => h.owed_live hmem) (h.rewrites_none rfl rfl) h.authors
    intro u hu heq
    rw [h.keyed.eq_of_key hu ht (by simpa using heq)]
    exact hlives t hguard

theorem Tidy.effect_claim (h : Tidy σ) (now : Nat) (locked : List Nat) :
    Effect σ (claim σ now locked) := by
  unfold claim
  cases hfound : claimable σ.tasks locked with
  | none => exact Effect.refl h
  | some t =>
    obtain ⟨ht, hqueued, _⟩ := claimable_eq hfound
    have hlives : ∀ u ∈ σ.tasks, (u.id == t.id) = true → Lives σ u (Task.setStatus .dispatched u) := by
      intro u hu heq
      rw [h.keyed.eq_of_key hu ht (by simpa using heq)]
      refine ⟨rfl, rfl, fun _ => .inl (by rw [hqueued]; rfl), ?_, ?_⟩
      · intro hstatus
        cases hstatus
      · intro hstatus
        cases hstatus
    dsimp only
    split
    · rename_i hroot
      refine h.effect (keeps_setStatus _) hlives rfl (fun _ hmem => h.owed_live hmem) ⟨?_, ?_, ?_, ?_⟩ ?_
      · intro m' hm'
        rcases reanchorClaimed_mem hm' with hold | ⟨m, hm, hid, hrole, htask, hle, huser, heq⟩
        · exact .inl hold
        · exact .inr (.inl ⟨m, hm, hid, hrole, htask, hle, huser, t, ht, heq.symm, hqueued, hroot⟩)
      · show ((reanchorClaimed _ _ _ _).map Message.id).Nodup
        rw [map_id_reanchorClaimed]
        exact h.messageIds
      · exact fun id hid => hid
      · intro m' hm'
        have hmem : m'.id ∈ (reanchorClaimed (updateTask σ.tasks t.id (Task.setStatus .dispatched)) σ.messages t.id
            now).map Message.id := mem_map.mpr ⟨m', hm', rfl⟩
        rw [map_id_reanchorClaimed] at hmem
        obtain ⟨m, hm, hid⟩ := mem_map.mp hmem
        exact hid ▸ h.known m hm
      · intro m' hm'
        obtain ⟨m, hm, heq⟩ := (retimed_reanchorClaimed _ _ t.id now).authors hm'
        exact heq ▸ h.authors m hm
    · exact h.effect (keeps_setStatus _) hlives rfl (fun _ hmem => h.owed_live hmem) (h.rewrites_none rfl rfl)
        h.authors

theorem Tidy.effect_complete (h : Tidy σ) (now taskId : Nat)
    (hnew : messageId ∉ σ.issued) : Effect σ (complete σ now taskId messageId) := by
  unfold complete
  cases hfound : guarded σ.tasks taskId fun t => t.status == .running with
  | none => exact Effect.refl h
  | some t =>
    obtain ⟨ht, _, hrunning⟩ := guarded_eq hfound
    have hlives : ∀ u ∈ σ.tasks, (u.id == t.id) = true → Lives σ u (Task.setStatus .completed u) :=
      fun u _ _ => lives_ended (keeps_setStatus _) (fun _ => rfl) fun _ => rfl
    refine h.effect (keeps_setStatus .completed) hlives rfl (fun _ hmem => h.owed_live hmem) ?_
      (h.authors_createAssistant (setTask σ t.id (Task.setStatus .completed)) rfl ht now messageId)
    exact h.rewrites_createAssistant (setTask σ t.id (Task.setStatus .completed)) rfl rfl (h.updated (keeps_setStatus _) hlives).2.2 ht
      (.inl (unfinished_of_eq hrunning rfl)) now hnew

variable {newTaskId : Nat}

theorem Tidy.born_retryChild (h : Tidy σ) (ht : t ∈ σ.tasks) (hlive : Live σ t) (reason : String)
    (now : Nat) (hnew : newTaskId ∉ σ.tasks.map Task.id) :
    Born σ (retryChild t reason now newTaskId) := by
  refine ⟨hnew, .inr ⟨t, ht, rfl, hlive⟩, ?_⟩
  intro _ heq
  have howner : t.chatInputTaskId = newTaskId := heq
  exact hnew (howner ▸ h.owners t ht)

theorem Tidy.effect_failTask (h : Tidy σ) (now taskId : Nat) (reason : String)
    (htask : newTaskId ∉ σ.tasks.map Task.id) (hnew : messageId ∉ σ.issued) :
    Effect σ (failTask σ now taskId newTaskId messageId reason) := by
  unfold failTask
  cases hfound : guarded σ.tasks taskId fun t => t.status.active with
  | none => exact Effect.refl h
  | some t =>
    obtain ⟨ht, _, hactive⟩ := guarded_eq hfound
    have hlive : Live σ t := .inl (unfinished_of_active hactive)
    have hlives : ∀ u ∈ σ.tasks, (u.id == t.id) = true → Lives σ u (Task.fail reason u) :=
      fun u _ _ => lives_failed σ u reason
    have hbase := h.updated (keeps_fail reason) hlives
    dsimp only
    split
    · exact Tidy.effect_add hbase (h.born_retryChild ht hlive reason now htask) rfl
        (fun _ hmem => h.owed_live hmem) (h.rewrites_none rfl rfl) fun m' hm' => .inl (h.authors m' hm')
    · exact h.effect (keeps_fail reason) hlives rfl (fun _ hmem => h.owed_live hmem)
        (h.rewrites_createAssistant (setTask σ t.id (Task.fail reason)) rfl rfl hbase.2.2 ht hlive now hnew)
        (h.authors_createAssistant (setTask σ t.id (Task.fail reason)) rfl ht now messageId)

theorem Tidy.effect_cancelTask (h : Tidy σ) (callId taskId : Nat) (supports : Bool) :
    Effect σ (cancelTask σ callId taskId supports) := by
  unfold cancelTask
  cases hfound : guarded σ.tasks taskId fun t => t.status.unfinished with
  | none => exact Effect.refl h
  | some t =>
    obtain ⟨ht, _, hunfinished⟩ := guarded_eq hfound
    refine h.effect (keeps_setStatus .cancelled) (fun u _ _ => lives_cancelled σ u) rfl ?_
      (h.rewrites_none rfl rfl) h.authors
    intro id hmem
    rcases mem_append.mp ((owedBy_append σ.calls _).mem_iff.mp hmem) with hnew | hold
    · rw [mem_singleton.mp hnew]
      exact ⟨t, ht, rfl, .inl hunfinished⟩
    · exact h.owed_live hold

theorem owedBy_filter_subset (calls : List Call) (callId : Nat)
    (h : taskId ∈ owedBy (calls.filter fun c => c.id ≠ callId)) : taskId ∈ owedBy calls := by
  obtain ⟨c, hc, hmem⟩ := mem_flatMap.mp h
  exact mem_flatMap.mpr ⟨c, (mem_filter.mp hc).1, hmem⟩

theorem Tidy.effect_finalize (h : Tidy σ) (now callId : Nat)
    (hnew : messageId ∉ σ.issued) : Effect σ (finalize σ now callId messageId) := by
  unfold finalize
  split
  · rename_i id taskId supports hfound
    obtain ⟨hc, _⟩ := findCall_eq hfound
    split
    · exact Effect.refl h
    · rename_i t htask
      have ht : t ∈ σ.tasks := mem_of_find?_eq_some htask
      have htid : t.id = taskId := by simpa using find?_some htask
      have hlive : Live σ t :=
        .inr (.inr (htid ▸ mem_flatMap.mpr ⟨_, hc, mem_cons_self⟩))
      have hcalls : ∀ taskId ∈ owedBy (closeCall σ callId).calls, ∃ t ∈ σ.tasks, t.id = taskId ∧ Live σ t :=
        fun _ hmem => h.owed_live (owedBy_filter_subset σ.calls callId hmem)
      have hsame : ∀ u ∈ σ.tasks, (fun _ : Task => false) u = true → Lives σ u (Task.setStatus .cancelled u) :=
        fun u _ hfalse => by cases hfalse
      have htasks : σ.tasks = Rows.update σ.tasks (fun _ => false) (Task.setStatus .cancelled) :=
        (Rows.update_of_none _ fun _ _ => rfl).symm
      unfold finalizeCancelled
      split
      · split
        · refine h.effect (keeps_finalizeDeferred true) ?_ rfl hcalls (h.rewrites_none rfl rfl) h.authors
          intro u hu heq
          rw [h.keyed.eq_of_key hu ht (by simpa using heq)]
          exact ⟨rfl, rfl, fun _ => hlive, .inl, fun hdeferred => hdeferred⟩
        · have hframe := deleteInput_frame (handsOver_toResponse t.chatInputTaskId) (closeCall σ callId)
          refine h.effect (keeps_setStatus .cancelled) hsame (hframe.1.trans htasks) (hframe.2 ▸ hcalls)
            (h.rewrites_deleteInput (closeCall σ callId) rfl rfl (handsOver_toResponse _))
            (h.authors_deleteInput (closeCall σ callId) rfl (handsOver_toResponse _))
      · exact h.effect (keeps_setStatus .cancelled) hsame htasks hcalls
          (h.rewrites_createAssistant (closeCall σ callId) rfl rfl (fun t' ht' => ⟨t', ht', lives_self σ t'⟩) ht hlive now
            hnew)
          (h.authors_createAssistant (closeCall σ callId) rfl ht now messageId)
  · exact Effect.refl h

theorem Tidy.effect_cancelQueued (h : Tidy σ) (taskId : Nat) (action : QueueAction) :
    Effect σ (cancelQueued σ taskId action) := by
  unfold cancelQueued
  cases hfound : guarded σ.tasks taskId fun t => t.status == .queued with
  | none => exact Effect.refl h
  | some t =>
    have hwithdraw : ∀ f, HandsOver t.chatInputTaskId f →
        Effect σ (deleteInput (setTask σ t.id (Task.setStatus .cancelled)) t.chatInputTaskId f) := by
      intro f hf
      have hframe := deleteInput_frame hf (setTask σ t.id (Task.setStatus .cancelled))
      refine h.effect (keeps_setStatus .cancelled) (fun u _ _ => lives_cancelled σ u) hframe.1 ?_
        (h.rewrites_deleteInput (setTask σ t.id (Task.setStatus .cancelled)) rfl rfl hf)
        (h.authors_deleteInput (setTask σ t.id (Task.setStatus .cancelled)) rfl hf)
      intro id hmem
      rw [hframe.2] at hmem
      exact h.owed_live hmem
    cases action with
    | edit => exact hwithdraw _ (handsOver_toDrafts _)
    | remove => exact hwithdraw _ (handsOver_toRemoved _)

theorem removeAll_frame (rows : List Task) (σ : State) :
    (rows.foldl (fun σ t => settleQueued σ t .remove) σ).messages.Sublist σ.messages ∧
      (rows.foldl (fun σ t => settleQueued σ t .remove) σ).issued = σ.issued ∧
      (rows.foldl (fun σ t => settleQueued σ t .remove) σ).tasks = σ.tasks ∧
      (rows.foldl (fun σ t => settleQueued σ t .remove) σ).calls = σ.calls := by
  induction rows generalizing σ with
  | nil => exact ⟨Sublist.refl _, rfl, rfl, rfl⟩
  | cons t rest ih =>
    have hframe := deleteInput_frame (handsOver_toRemoved t.chatInputTaskId) σ
    have hone : (settleQueued σ t .remove).messages.Sublist σ.messages ∧
        (settleQueued σ t .remove).issued = σ.issued := by
      unfold settleQueued deleteInput
      dsimp only
      split
      · exact ⟨filter_sublist, rfl⟩
      · exact ⟨Sublist.refl _, rfl⟩
    obtain ⟨hmessages, hissued, htasks, hcalls⟩ := ih (settleQueued σ t .remove)
    exact ⟨hmessages.trans hone.1, hissued.trans hone.2, htasks.trans hframe.1, hcalls.trans hframe.2⟩

theorem Tidy.effect_cancelFollowUps (h : Tidy σ) : Effect σ (cancelFollowUps σ) := by
  obtain ⟨hmessages, hissued, htasks, hcalls⟩ :=
    removeAll_frame (followUps σ.tasks) { σ with tasks := cancelRows σ.tasks (followUps σ.tasks) }
  refine h.effect (keeps_setStatus .cancelled) (fun u _ _ => lives_cancelled σ u) htasks ?_ ⟨?_, ?_, ?_, ?_⟩ ?_
  · intro id hmem
    exact h.owed_live (hcalls ▸ hmem)
  · intro m' hm'
    exact .inl (hmessages.subset hm')
  · exact h.messageIds.sublist (hmessages.map _)
  · intro id hid
    exact hissued ▸ hid
  · intro m' hm'
    exact hissued ▸ h.known m' (hmessages.subset hm')
  · intro m' hm'
    exact h.authors m' (hmessages.subset hm')

theorem Tidy.effect_finalizeDeferred (h : Tidy σ) (now taskId : Nat)
    (hnew : messageId ∉ σ.issued) : Effect σ (finalizeDeferred σ now taskId messageId) := by
  unfold finalizeDeferred
  cases hfound : guarded σ.tasks taskId Task.finalizeDeferred with
  | none => exact Effect.refl h
  | some t =>
    obtain ⟨ht, _, hmarked⟩ := guarded_eq hfound
    have hlive : Live σ t := .inr (.inl hmarked)
    have hlives : ∀ u ∈ σ.tasks, (u.id == t.id) = true → Lives σ u { u with finalizeDeferred := false } := by
      intro u hu heq
      rw [h.keyed.eq_of_key hu ht (by simpa using heq)]
      exact ⟨rfl, rfl, fun _ => hlive, .inl, fun hdeferred => hdeferred⟩
    have hbase := h.updated (keeps_finalizeDeferred false) hlives
    let taken := setTask σ t.id fun t => { t with finalizeDeferred := false }
    dsimp only
    split
    · have hframe := deleteInput_frame (handsOver_toDrafts t.chatInputTaskId) taken
      refine h.effect (keeps_finalizeDeferred false) hlives hframe.1 ?_
        (h.rewrites_deleteInput taken rfl rfl (handsOver_toDrafts _))
        (h.authors_deleteInput taken rfl (handsOver_toDrafts _))
      intro id hmem
      rw [hframe.2] at hmem
      exact h.owed_live hmem
    · exact h.effect (keeps_finalizeDeferred false) hlives rfl (fun _ hmem => h.owed_live hmem)
        (h.rewrites_createAssistant taken rfl rfl hbase.2.2 ht hlive now hnew)
        (h.authors_createAssistant taken rfl ht now messageId)

theorem Tidy.effect_sweep (h : Tidy σ) (callId : Nat) (kind : Sweep) (selected : List Nat) :
    Effect σ (sweep σ callId kind selected) := by
  unfold sweep
  dsimp only
  split
  · exact Effect.refl h
  · refine h.effect (keeps_fail kind.reason) (fun u _ _ => lives_failed σ u kind.reason) rfl ?_
      (h.rewrites_none rfl rfl) h.authors
    intro id hmem
    rcases mem_append.mp ((owedBy_append σ.calls _).mem_iff.mp hmem) with hnew | hold
    · obtain ⟨t, ht, hid⟩ := mem_map.mp hnew
      obtain ⟨hmem, hp⟩ := mem_filter.mp ht
      rw [Bool.and_eq_true] at hp
      exact ⟨t, hmem, hid, .inl (Sweep.unfinished hp.2)⟩
    · exact h.owed_live hold

theorem owedBy_setWork_subset {calls : List Call} {callId : Nat} {work : Work} {taskIds : List Nat}
    (hwork : ∀ taskId ∈ work.taskIds, taskId ∈ taskIds)
    (h : taskId ∈ owedBy (Rows.update calls (fun c => c.id == callId) fun c => { c with work := work })) :
    taskId ∈ owedBy calls ∨ taskId ∈ taskIds := by
  obtain ⟨c', hc', hmem⟩ := mem_flatMap.mp h
  rcases Rows.mem_update.mp hc' with ⟨c, _, _, rfl⟩ | ⟨hc, _⟩
  · exact .inr (hwork taskId hmem)
  · exact .inl (mem_flatMap.mpr ⟨c', hc, hmem⟩)

theorem Tidy.effect_handleNext (h : Tidy σ) (now callId : Nat)
    (hnew : newTaskId ∉ σ.tasks.map Task.id) : Effect σ (handleNext σ now callId newTaskId) := by
  unfold handleNext
  split
  · rename_i id taskId rest hfound
    obtain ⟨hc, _⟩ := findCall_eq hfound
    have howed : ∀ taskId' ∈ taskId :: rest, taskId' ∈ owedBy σ.calls :=
      fun taskId' hmem => mem_flatMap.mpr ⟨_, hc, hmem⟩
    have hleft : ∀ calls : List Call, (∀ taskId' ∈ owedBy calls, taskId' ∈ owedBy σ.calls) →
        Effect σ { σ with calls := calls } ∧
          ∀ t ∈ σ.tasks, t.id = taskId → Effect σ (maybeRetry { σ with calls := calls } now newTaskId t) := by
      intro calls hsub
      have hcalls : ∀ taskId' ∈ owedBy calls, ∃ t ∈ σ.tasks, t.id = taskId' ∧ Live σ t :=
        fun _ hmem => h.owed_live (hsub _ hmem)
      have hsame : Effect σ { σ with calls := calls } :=
        ⟨h.rewrites_none rfl rfl, h.keyed, fun _ hmem => hmem,
          fun t' ht' => .inl ⟨t', ht', lives_self σ t'⟩, hcalls, h.authors⟩
      refine ⟨hsame, ?_⟩
      intro t ht htid
      unfold maybeRetry
      split
      · exact hsame
      · split
        · have hlive : Live σ t := .inr (.inr (htid ▸ howed taskId mem_cons_self))
          exact Tidy.effect_add h.unchanged (h.born_retryChild ht hlive _ now hnew) rfl hcalls
            (h.rewrites_none rfl rfl) fun m' hm' => .inl (h.authors m' hm')
        · exact hsame
    have hrest : ∃ calls, (if rest.isEmpty then closeCall σ callId
        else setWork σ callId (.handle rest)) = { σ with calls := calls } ∧
          ∀ taskId' ∈ owedBy calls, taskId' ∈ owedBy σ.calls := by
      split
      · exact ⟨_, rfl, fun _ hmem => owedBy_filter_subset σ.calls callId hmem⟩
      · refine ⟨_, rfl, ?_⟩
        intro taskId' hmem
        rcases owedBy_setWork_subset (fun _ hmem => hmem) hmem with hold | hrest
        · exact hold
        · exact howed taskId' (mem_cons_of_mem _ hrest)
    obtain ⟨calls, heq, hsub⟩ := hrest
    rw [heq]
    cases htask : findTask σ.tasks taskId with
    | none => exact (hleft calls hsub).1
    | some t =>
      exact (hleft calls hsub).2 t (mem_of_find?_eq_some htask) (by simpa using find?_some htask)
  · exact Effect.refl h

theorem Tidy.effect_step (h : Tidy σ) (a : Action) : Effect σ (ChatTurns.step σ a).2 := by
  unfold ChatTurns.step
  dsimp only
  split
  · rename_i hfresh
    unfold Action.fresh at hfresh
    rw [Bool.and_eq_true, Bool.and_eq_true] at hfresh
    obtain ⟨⟨htask, hmessage⟩, _⟩ := hfresh
    have hissued : ∀ id, a.newMessage = some id → id ∉ σ.issued := by
      intro id heq
      rw [heq] at hmessage
      simpa using hmessage
    cases a with
    | send now taskId messageId => exact h.effect_send now (notMem_of_all htask) (hissued _ rfl)
    | claim now locked => exact h.effect_claim now locked
    | start taskId =>
      refine h.effect_moveTask (f := fun t => { t with status := .running, started := true })
        ⟨fun _ => rfl, fun _ => rfl, fun _ => rfl⟩ ?_
      intro t hguard
      rw [Bool.or_eq_true] at hguard
      refine ⟨rfl, rfl, fun _ => .inl ?_, (fun hqueued => by cases hqueued),
        fun hdeferred => by cases hdeferred⟩
      rcases hguard with hdispatched | hwaiting
      · exact unfinished_of_eq hdispatched rfl
      · exact unfinished_of_eq hwaiting rfl
    | waitLocalDirectory taskId =>
      apply h.effect_moveTask (keeps_setStatus _)
      intro t hguard
      exact ⟨rfl, rfl, fun _ => .inl (unfinished_of_eq hguard rfl), (fun hqueued => by cases hqueued),
        fun hdeferred => by cases hdeferred⟩
    | promote taskId =>
      apply h.effect_moveTask (keeps_setStatus _)
      intro t hguard
      exact ⟨rfl, rfl, fun _ => .inl (unfinished_of_eq hguard rfl), fun _ => .inr (by simpa using hguard),
        fun hdeferred => by cases hdeferred⟩
    | taskMessage taskId =>
      refine h.effect_moveTask (f := fun t => { t with taskMessages := t.taskMessages + 1 })
        ⟨fun _ => rfl, fun _ => rfl, fun _ => rfl⟩ ?_
      intro t _
      exact ⟨rfl, rfl, fun hlive => hlive.imp_right .inl, .inl, fun hdeferred => hdeferred⟩
    | complete now taskId messageId => exact h.effect_complete now taskId (hissued _ rfl)
    | fail now taskId newTaskId messageId reason =>
      exact h.effect_failTask now taskId reason (notMem_of_all htask) (hissued _ rfl)
    | cancel callId taskId supports => exact h.effect_cancelTask callId taskId supports
    | finalize now callId messageId => exact h.effect_finalize now callId (hissued _ rfl)
    | cancelQueued taskId action => exact h.effect_cancelQueued taskId action
    | cancelFollowUps => exact h.effect_cancelFollowUps
    | cancelAgent =>
      exact h.effect (keeps_setStatus .cancelled) (fun u _ _ => lives_cancelled σ u) rfl
        (fun _ hmem => h.owed_live hmem) (h.rewrites_none rfl rfl) h.authors
    | finalizeDeferred now taskId messageId => exact h.effect_finalizeDeferred now taskId (hissued _ rfl)
    | sweep callId kind selected => exact h.effect_sweep callId kind selected
    | handleNext now callId newTaskId => exact h.effect_handleNext now callId (notMem_of_all htask)
  · exact Effect.refl h

end ClawMessenger.Ports.ChatTurns
