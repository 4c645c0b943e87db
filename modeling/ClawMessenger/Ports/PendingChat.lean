import ClawMessenger.Verified.Lookup
import ClawMessenger.Verified.StableSort

/-!
# The pending tasks of a chat session

`packages/core/chat/pending.ts`.  The client keeps, for each chat session, the
task that runs (the head) and the follow-ups behind it.  Send responses, events
and user actions reach it in any order, and each of them is one of four
reducers over the cached record.

A field that a JavaScript object may lack is an `Option`.  What the queue is
sorted with is the platform's: `Date.parse`, `localeCompare` and a stable sort,
which promises nothing more than a permutation where the comparator is not
consistent.
-/

namespace ClawMessenger.Ports.PendingChat

open Verified
open OrderedMap (erase erase_set has keys mem_entries_set_iff mem_keys_iff_has nodup values)

/-! ## Records -/

structure ChatQueuedTask where
  taskId : String
  status : String
  createdAt : String
  messageId : Option String
  content : Option String
  deriving DecidableEq, Repr

/-- The message fields are those the head keeps of the task it was made from. -/
structure ChatPendingTask where
  taskId : Option String
  status : Option String
  createdAt : Option String
  messageId : Option String
  content : Option String
  waitReason : Option String
  supportsQueue : Option Bool
  queuedTasks : Option (List ChatQueuedTask)

/-- `EMPTY_PENDING_TASK` -/
def emptyPendingTask : ChatPendingTask := ⟨none, none, none, none, none, none, none, none⟩

/-- A text that JavaScript takes for true. -/
def truthy (text : Option String) : Option String := text.filter (· ≠ "")

def ChatPendingTask.queue (pending : ChatPendingTask) : List ChatQueuedTask :=
  pending.queuedTasks.getD []

/-- `current?.queued_tasks ?? []` -/
def queue (current : Option ChatPendingTask) : List ChatQueuedTask :=
  (current.map ChatPendingTask.queue).getD []

section

variable (current : Option ChatPendingTask)

def queueIds : List String :=
  (queue current).map ChatQueuedTask.taskId

/-- `current?.task_id`, undefined for a cache without a record or a head. -/
def headId : Option String := current.bind ChatPendingTask.taskId

/-- The head and the follow-ups. -/
def trackedIds : List String :=
  (headId current).toList ++ queueIds current

end

/-- The message a row was sent with, as far as the row knows it. -/
def ChatQueuedTask.message (task : ChatQueuedTask) : Option String := truthy task.messageId

/-- The message the head was sent with. -/
def headMessage (current : Option ChatPendingTask) : Option String :=
  current.bind fun pending => truthy pending.messageId

/-- The cache tracks the task and has this message for it. -/
def Knows (current : Option ChatPendingTask) (id message : String) : Prop :=
  (headId current = some id ∧ headMessage current = some message) ∨
    ∃ row ∈ queue current, row.taskId = id ∧ row.message = some message

variable {current : Option ChatPendingTask}

theorem mem_trackedIds {id : String} :
    id ∈ trackedIds current ↔ headId current = some id ∨ id ∈ queueIds current := by
  simp [trackedIds]

theorem trackedIds_nodup :
    (trackedIds current).Nodup ↔
      (∀ id, headId current = some id → id ∉ queueIds current) ∧ (queueIds current).Nodup := by
  unfold trackedIds
  cases headId current with
  | none => simp
  | some head => simp [List.nodup_cons]

/-! ## The queue -/

/-- What the platform brings along. -/
structure Platform where
  /-- `Array.prototype.sort` -/
  sorting : Sorting ChatQueuedTask
  /-- `Date.parse`; nothing for `NaN`. -/
  dateParse : String → Option Int
  localeCompare : String → String → Int

def compareQueuedTasks (platform : Platform) (left right : ChatQueuedTask) : Int :=
  match platform.dateParse left.createdAt, platform.dateParse right.createdAt with
  | some leftTime, some rightTime =>
    if leftTime ≠ rightTime then leftTime - rightTime
    else platform.localeCompare left.taskId right.taskId
  | _, _ => platform.localeCompare left.taskId right.taskId

/-- One turn of the loop of `uniqueQueue`. -/
def observe (byId : OrderedMap String ChatQueuedTask) (task : ChatQueuedTask) :
    OrderedMap String ChatQueuedTask :=
  if byId.has task.taskId = false ∨ task.message.isSome then byId.set task.taskId task else byId

def uniqueQueue (tasks : List ChatQueuedTask) : List ChatQueuedTask :=
  (tasks.foldl observe ∅).values

def normalizeQueue (platform : Platform) (tasks : List ChatQueuedTask) : List ChatQueuedTask :=
  platform.sorting.sort (compareQueuedTasks platform) (uniqueQueue tasks)

def asSummary (task : ChatPendingTask) : Option ChatQueuedTask :=
  (truthy task.taskId).map fun id =>
    ⟨id, task.status.getD "queued", task.createdAt.getD "", none, none⟩

def others (tasks : List ChatQueuedTask) (taskId : String) : List ChatQueuedTask :=
  tasks.filter fun task => task.taskId ≠ taskId

/-! ## The reducers -/

/-- A task as the head, with the record's queue support. -/
def asHead (task : ChatQueuedTask) (supportsQueue : Option Bool) (rest : List ChatQueuedTask) :
    ChatPendingTask where
  taskId := some task.taskId
  status := some task.status
  createdAt := some task.createdAt
  messageId := task.messageId
  content := task.content
  waitReason := none
  supportsQueue := supportsQueue
  queuedTasks := some rest

/-- `enqueuePendingChatTask`'s default for `queued`. -/
def queuesBehind (current : Option ChatPendingTask) (task : ChatQueuedTask) : Bool :=
  (truthy (headId current)).any (· ≠ task.taskId)

def enqueuePendingChatTask (platform : Platform) (current : Option ChatPendingTask)
    (task : ChatQueuedTask) (queued : Bool) : ChatPendingTask :=
  match current, truthy (headId current) with
  | some pending, some head =>
    if head = task.taskId then
      { pending with
        taskId := some task.taskId
        status := some ((truthy pending.status).filter (· ≠ "queued") |>.getD task.status)
        createdAt := some ((truthy pending.createdAt).getD task.createdAt)
        messageId := task.messageId.or pending.messageId
        content := task.content.or pending.content
        queuedTasks := some (others pending.queue task.taskId) }
    else if queued = false then asHead task pending.supportsQueue []
    else
      { pending with
        queuedTasks := some (normalizeQueue platform (pending.queue ++ [task])) }
  | _, _ =>
    let supportsQueue := current.bind ChatPendingTask.supportsQueue
    if queued then
      { emptyPendingTask with supportsQueue := supportsQueue, queuedTasks := some [task] }
    else
      asHead task supportsQueue (normalizeQueue platform (others (queue current) task.taskId))

def resolveWaitReason (status : String) (incoming existing : Option String) : Option String :=
  if status ≠ "waiting_local_directory" then none else incoming.or existing

section

variable (current : Option ChatPendingTask)

def promotePendingChatTask (taskId status : String)
    (createdAt waitReason : Option String) : ChatPendingTask :=
  match current with
  | none => emptyPendingTask
  | some pending =>
    if pending.taskId = some taskId then
      { pending with
        status := some status
        waitReason := resolveWaitReason status waitReason pending.waitReason
        queuedTasks := some (others pending.queue taskId) }
    else
      match truthy pending.taskId, pending.queue.find? (·.taskId = taskId) with
      | some _, some promoted =>
        let previousHead := (asSummary pending).filter (·.status = "queued")
        { asHead promoted pending.supportsQueue
            (uniqueQueue (previousHead.toList ++ others pending.queue taskId)) with
          status := some status
          waitReason := resolveWaitReason status waitReason none
          createdAt := some ((truthy (some promoted.createdAt)).getD
            ((truthy createdAt).getD "")) }
      | _, _ => pending

def removePendingChatTask (taskId : String) :
    ChatPendingTask :=
  match current, truthy (headId current) with
  | some pending, some head =>
    if head ≠ taskId then
      { pending with queuedTasks := some (others pending.queue taskId) }
    else
      match uniqueQueue (others pending.queue taskId) with
      | [] => emptyPendingTask
      | next :: rest => asHead next pending.supportsQueue rest
  | _, _ => emptyPendingTask

def prioritizePendingChatTask (taskId : String) :
    ChatPendingTask :=
  match current, truthy (headId current) with
  | some pending, some _ =>
    match pending.queue.find? (·.taskId = taskId) with
    | none => pending
    | some selected =>
      { pending with queuedTasks := some (selected :: others pending.queue taskId) }
  | _, _ => emptyPendingTask

end

/-! ## One row for each task -/

/-- Every entry stands under its task's id. -/
def Keyed (byId : OrderedMap String ChatQueuedTask) : Prop :=
  ∀ e ∈ byId.entries, e.2.taskId = e.1

variable {byId : OrderedMap String ChatQueuedTask} {row : ChatQueuedTask}
  {tasks : List ChatQueuedTask}

theorem Keyed.values_ids (h : Keyed byId) :
    byId.values.map ChatQueuedTask.taskId = byId.keys := by
  rw [values, keys, List.map_map]
  apply List.map_congr_left
  intro e he
  exact h e he

theorem Keyed.mem_values
    (h : Keyed byId) : row ∈ byId.values ↔ byId.get? row.taskId = some row := by
  rw [OrderedMap.get?_eq_some_iff, values, List.mem_map]
  constructor
  · rintro ⟨⟨key, value⟩, he, rfl⟩
    rw [h _ he]
    exact he
  · intro he
    exact ⟨_, he, rfl⟩

theorem Keyed.set (h : Keyed byId) (task : ChatQueuedTask) : Keyed (byId.set task.taskId task) := by
  intro e he
  rcases mem_entries_set_iff.mp he with rfl | ⟨_, he⟩
  · rfl
  · exact h e he

theorem Keyed.observe (h : Keyed byId) (task : ChatQueuedTask) : Keyed (observe byId task) := by
  unfold PendingChat.observe
  split
  · exact h.set task
  · exact h

theorem keyed_foldl (tasks : List ChatQueuedTask)
    (h : Keyed byId) : Keyed (tasks.foldl observe byId) := by
  induction tasks generalizing byId with
  | nil => exact h
  | cons task rest ih => exact ih (h.observe task)

theorem keyed_empty : Keyed ∅ := nofun

theorem uniqueQueue_nodup (tasks : List ChatQueuedTask) :
    ((uniqueQueue tasks).map ChatQueuedTask.taskId).Nodup := by
  rw [uniqueQueue, (keyed_foldl tasks keyed_empty).values_ids]
  exact nodup _

theorem mem_observe {task : ChatQueuedTask}
    (h : row ∈ (observe byId task).values) : row = task ∨ row ∈ byId.values := by
  unfold observe at h
  split at h
  · obtain ⟨e, he, rfl⟩ := List.mem_map.mp h
    rcases mem_entries_set_iff.mp he with rfl | ⟨_, he⟩
    · exact .inl rfl
    · exact .inr (List.mem_map.mpr ⟨e, he, rfl⟩)
  · exact .inr h

theorem mem_foldl_observe (h : row ∈ (tasks.foldl observe byId).values) :
    row ∈ byId.values ∨ row ∈ tasks := by
  induction tasks generalizing byId with
  | nil => exact .inl h
  | cons task rest ih =>
    rcases ih h with h | h
    · rcases mem_observe h with h | h
      · exact .inr (by simp [h])
      · exact .inl h
    · exact .inr (List.mem_cons_of_mem _ h)

theorem mem_uniqueQueue (h : row ∈ uniqueQueue tasks) : row ∈ tasks := by
  rcases mem_foldl_observe h with h | h
  · cases h
  · exact h

/-- An observed id is one seen before or that of the task. -/
theorem has_observe (byId : OrderedMap String ChatQueuedTask) (task : ChatQueuedTask)
    (id : String) :
    (observe byId task).has id = true ↔ id = task.taskId ∨ byId.has id = true := by
  unfold observe
  by_cases hid : id = task.taskId
  · subst hid
    split
    · simp [has]
    · next h =>
        simp only [not_or, Bool.not_eq_false] at h
        simp [h.1]
  · split
    · simp [has, OrderedMap.get?_set_ne, hid]
    · simp [hid]

/-- What an observation leaves in the other rows, in their order. -/
theorem others_observe (h : Keyed byId) (task : ChatQueuedTask) :
    others (observe byId task).values task.taskId = others byId.values task.taskId := by
  have hothers : ∀ m : OrderedMap String ChatQueuedTask, Keyed m →
      others m.values task.taskId = (m.erase task.taskId).values := by
    intro m hm
    rw [others, values, values, List.filter_map, erase,
      OrderedMap.filter]
    congr 1
    apply List.filter_congr
    intro e he
    simp [hm e he]
  rw [hothers _ (h.observe task), hothers _ h]
  unfold observe
  split
  · rw [erase_set]
  · rfl

/-- Tasks that are all different stay as they are. -/
theorem foldl_observe_of_nodup (h : (tasks.map ChatQueuedTask.taskId).Nodup) :
    (tasks.foldl observe ∅).entries = tasks.map fun task => (task.taskId, task) := by
  induction tasks using List.reverseRecOn with
  | nil => rfl
  | append_singleton tasks task ih =>
    rw [List.map_append, List.nodup_append] at h
    have hprevious := ih h.1
    rw [List.foldl_append, List.foldl_cons, List.foldl_nil, List.map_append]
    have hfresh : (tasks.foldl observe ∅).get? task.taskId = none := by
      rw [OrderedMap.get?_eq_none_iff]
      show task.taskId ∉ (tasks.foldl observe ∅).entries.map Prod.fst
      rw [hprevious, List.map_map]
      intro hmem
      exact h.2.2 _ hmem _ (by simp) rfl
    rw [observe, if_pos (.inl (OrderedMap.has_eq_false_iff.mpr hfresh)),
      OrderedMap.entries_set_of_fresh _ hfresh, hprevious]
    rfl

theorem uniqueQueue_of_nodup
    (h : (tasks.map ChatQueuedTask.taskId).Nodup) : uniqueQueue tasks = tasks := by
  rw [uniqueQueue, values, foldl_observe_of_nodup h, List.map_map]
  exact List.map_id _

/-- A task behind a queue: the other rows stay, and the one of the task is the
richer of the two. -/
structure Joined (tasks joined : List ChatQueuedTask) (task : ChatQueuedTask) : Prop where
  nodup : (joined.map ChatQueuedTask.taskId).Nodup
  ids : ∀ id, id ∈ joined.map ChatQueuedTask.taskId ↔
    id = task.taskId ∨ id ∈ tasks.map ChatQueuedTask.taskId
  others : others joined task.taskId = others tasks task.taskId
  told : task.message.isSome → task ∈ joined
  kept : task.message = none → ∀ row ∈ tasks, row.taskId = task.taskId → row ∈ joined

theorem uniqueQueue_concat (h : (tasks.map ChatQueuedTask.taskId).Nodup) (task : ChatQueuedTask) :
    Joined tasks (uniqueQueue (tasks ++ [task])) task := by
  have hbyId := keyed_foldl tasks keyed_empty
  have hvalues : (tasks.foldl observe ∅).values = tasks := uniqueQueue_of_nodup h
  have hunique : uniqueQueue (tasks ++ [task]) = (observe (tasks.foldl observe ∅) task).values := by
    rw [uniqueQueue, List.foldl_append]
    rfl
  have hnodup := uniqueQueue_nodup (tasks ++ [task])
  have hothers := others_observe hbyId task
  rw [hvalues] at hothers
  have hids : ∀ id, id ∈ (observe (tasks.foldl observe ∅) task).values.map ChatQueuedTask.taskId ↔
      id = task.taskId ∨ id ∈ tasks.map ChatQueuedTask.taskId := by
    intro id
    have htasks : tasks.map ChatQueuedTask.taskId = (tasks.foldl observe ∅).keys := by
      rw [← hbyId.values_ids, hvalues]
    rw [(hbyId.observe task).values_ids, htasks, mem_keys_iff_has,
      mem_keys_iff_has]
    exact has_observe _ task id
  rw [hunique] at hnodup ⊢
  refine ⟨hnodup, hids, hothers, ?_, ?_⟩
  · intro htold
    rw [(hbyId.observe task).mem_values, observe, if_pos (.inr htold)]
    exact OrderedMap.get?_set_self _ _ _
  · intro hsparse row hrow hid
    rw [← hvalues, hbyId.mem_values, hid] at hrow
    have hhas : (tasks.foldl observe ∅).has task.taskId = true := by
      simp [has, hrow]
    rw [(hbyId.observe task).mem_values, observe, if_neg (by simp [hhas, hsparse]), hid]
    exact hrow

end ClawMessenger.Ports.PendingChat
