import ClawMessenger.Ports.PendingChat
import ClawMessenger.Verified.Machine

/-!
# What a session's queue keeps

Beside the cache of a session runs a ledger of what it was told: which tasks
were enqueued as queued and neither removed nor promoted since, the messages
told of the tasks that are tracked, and the order of the queue when a user last
chose one.  What is promised, that the head is never queued and no task queued
twice among it, is kept by the steps that `Keeps` describes (`queue_intact`);
each of the steps it leaves out is an early return that drops rows, a summary
without its message, or a sort over a chosen order.
-/

namespace ClawMessenger.Ports.PendingChat

open Verified Verified.Machine List

/-! ## Sessions -/

inductive Action where
  | enqueue (task : ChatQueuedTask) (queued : Option Bool)
  | promote (taskId status : String) (createdAt waitReason : Option String)
  | remove (taskId : String)
  | prioritize (taskId : String)

structure Session where
  cache : Option ChatPendingTask
  /-- Enqueued as queued, and neither removed nor promoted since. -/
  waiting : List String
  /-- What the tracked tasks were sent with, as last told. -/
  known : OrderedMap String String
  /-- The queue as a user left it, without the tasks told anew or promoted. -/
  chosen : List String

def init : Session := ⟨none, [], ∅, []⟩

def isQueued (s : Session) (task : ChatQueuedTask) (queued : Option Bool) : Bool :=
  queued.getD (queuesBehind s.cache task)

def reduce (platform : Platform) (s : Session) : Action → ChatPendingTask
  | .enqueue task queued => enqueuePendingChatTask platform s.cache task (isQueued s task queued)
  | .promote taskId status createdAt waitReason =>
    promotePendingChatTask s.cache taskId status createdAt waitReason
  | .remove taskId => removePendingChatTask s.cache taskId
  | .prioritize taskId => prioritizePendingChatTask s.cache taskId

def without (ids : List String) (id : String) : List String := ids.filter (· ≠ id)

def waitingAfter (s : Session) : Action → List String
  | .enqueue task queued =>
    if isQueued s task queued then task.taskId :: s.waiting else s.waiting
  | .promote taskId _ _ _ | .remove taskId => without s.waiting taskId
  | .prioritize _ => s.waiting

def knownAfter (s : Session) : Action → OrderedMap String String
  | .enqueue task _ =>
    match task.message with
    | some message => s.known.set task.taskId message
    | none => s.known
  | _ => s.known

/-- A user orders a queue only where there is a head and the task is behind it. -/
def reorders (s : Session) (taskId : String) : Bool :=
  (truthy (headId s.cache)).isSome && taskId ∈ queueIds s.cache

def chosenAfter (s : Session) (next : ChatPendingTask) : Action → List String
  | .enqueue task _ => without s.chosen task.taskId
  | .promote taskId _ _ _ => without s.chosen taskId
  | .remove _ => s.chosen
  | .prioritize taskId => if reorders s taskId then queueIds (some next) else s.chosen

def step (platform : Platform) (s : Session) (action : Action) : Unit × Session :=
  let next := reduce platform s action
  ((), {
    cache := some next
    waiting := waitingAfter s action
    known := (knownAfter s action).filter fun id _ => id ∈ trackedIds (some next)
    chosen := chosenAfter s next action })

abbrev Cfg := Config Session Action Unit

/-! ## What is promised -/

structure Intact (s : Session) : Prop where
  headApart : ∀ id, headId s.cache = some id → id ∉ queueIds s.cache
  queuedOnce : (queueIds s.cache).Nodup
  tracked : ∀ id ∈ s.waiting, id ∈ trackedIds s.cache
  messages : ∀ id message, s.known.get? id = some message → Knows s.cache id message
  order : List.Sublist ((queueIds s.cache).filter (· ∈ s.chosen)) s.chosen
  chosenOnce : s.chosen.Nodup

/-- The rows of the queue whose order a user chose, without those of a task. -/
def chosenRows (s : Session) (taskId : String) : List ChatQueuedTask :=
  (queue s.cache).filter fun row => row.taskId ∈ without s.chosen taskId

/-- Sorting the queue with the task does not undo an order a user chose. -/
def SortKeeps (platform : Platform) (s : Session) (task : ChatQueuedTask) : Prop :=
  2 ≤ (chosenRows s task.taskId).length →
    Consistent (compareQueuedTasks platform) (queue s.cache ++ [task]) ∧
      (chosenRows s task.taskId).Pairwise fun a b => compareQueuedTasks platform a b ≤ 0

/-- A task that was told with its message is told with it again. -/
def ToldAgain (s : Session) (task : ChatQueuedTask) : Prop :=
  s.known.has task.taskId = true → task.message.isSome = true

/-- The steps after which everything promised still holds. -/
def Keeps (platform : Platform) (s : Session) : Action → Prop
  | .enqueue task queued =>
    match truthy (headId s.cache) with
    | none =>
      ToldAgain s task ∧
        if isQueued s task queued then ∀ id ∈ s.waiting, id = task.taskId
        else (∀ id ∈ s.waiting, headId s.cache = some id → id = task.taskId) ∧
          SortKeeps platform s task
    | some head =>
      if head = task.taskId then task.messageId = some "" → s.known.has head = false
      else if isQueued s task queued then SortKeeps platform s task
      else ToldAgain s task ∧ ∀ id ∈ s.waiting, id = task.taskId
  | .promote taskId _ _ _ =>
    ∀ pending ∈ s.cache, ∀ head ∈ truthy pending.taskId,
      pending.taskId ≠ some taskId → taskId ∈ queueIds s.cache →
        if pending.status.getD "queued" = "queued" then s.known.has head = false
        else head ∉ s.waiting
  | .remove taskId => truthy (headId s.cache) = none → ∀ id ∈ s.waiting, id = taskId
  | .prioritize _ => truthy (headId s.cache) = none → s.waiting = []

/-! ## Orders -/

/-- The chosen ones among some tasks, in their order there. -/
def chosenOf (ids chosen : List String) : List String := ids.filter (· ∈ chosen)

variable {ids ids' chosen : List String}

theorem chosenOf_sublist (hsub : Sublist ids' ids)
    (h : Sublist (chosenOf ids chosen) chosen) :
    Sublist (chosenOf ids' chosen) chosen :=
  (hsub.filter _).trans h

variable {id : String} {platform : Platform} {s : Session} {task : ChatQueuedTask}
  {queued : Option Bool} {next : ChatPendingTask}

/-- A task that is told anew or promoted stands anywhere. -/
theorem chosenOf_without (hsub : Sublist (without ids' id) ids)
    (h : Sublist (chosenOf ids chosen) chosen) :
    Sublist (chosenOf ids' (without chosen id)) (without chosen id) := by
  have hsplit : chosenOf ids' (without chosen id) = without (chosenOf (without ids' id) chosen) id := by
    unfold chosenOf without
    simp only [filter_filter]
    apply filter_congr
    intro other _
    by_cases hother : other = id
    · simp [hother]
    · simp [hother]
  rw [hsplit]
  exact ((hsub.filter _).trans h).filter _

theorem without_ids (rows : List ChatQueuedTask) (id : String) :
    (others rows id).map ChatQueuedTask.taskId =
      without (rows.map ChatQueuedTask.taskId) id := by
  rw [others, without, filter_map]
  rfl

theorem mem_without {other : String} :
    other ∈ without ids id ↔ other ∈ ids ∧ other ≠ id := by
  simp [without]

variable {rows : List ChatQueuedTask}

theorem mem_others {row : ChatQueuedTask} :
    row ∈ others rows id ↔ row ∈ rows ∧ row.taskId ≠ id := by
  simp [others]

/-- The sort leaves the chosen rows in their order. -/
theorem chosen_sort (h : SortKeeps platform s task)
    (hsub : ∀ row ∈ rows, row ∈ queue s.cache ++ [task])
    (hothers : others rows task.taskId = others (queue s.cache) task.taskId) :
    (platform.sorting.sort (compareQueuedTasks platform) rows).filter
      (fun row => row.taskId ∈ without s.chosen task.taskId) = chosenRows s task.taskId := by
  have hrows : rows.filter (fun row => row.taskId ∈ without s.chosen task.taskId) =
      chosenRows s task.taskId := by
    have hfilter : ∀ l : List ChatQueuedTask,
        l.filter (fun row => row.taskId ∈ without s.chosen task.taskId) =
          (others l task.taskId).filter (fun row => row.taskId ∈ without s.chosen task.taskId) := by
      intro l
      rw [others, filter_filter]
      apply filter_congr
      intro row _
      simp only [mem_without, ne_eq, decide_not]
      by_cases hid : row.taskId = task.taskId
      · simp [hid]
      · simp [hid]
    rw [chosenRows, hfilter rows, hothers, ← hfilter]
  rw [← hrows]
  apply platform.sorting.filter_sort
  rw [hrows]
  intro hmany
  obtain ⟨hconsistent, hordered⟩ := h hmany
  exact ⟨hconsistent.mono hsub, hordered⟩

/-! ## What one reducer keeps -/

structure Sound (s : Session) : Prop where
  nodup : (trackedIds s.cache).Nodup
  tracked : ∀ id ∈ s.waiting, id ∈ trackedIds s.cache
  messages : ∀ id message, s.known.get? id = some message → Knows s.cache id message
  order : List.Sublist (chosenOf (trackedIds s.cache) s.chosen) s.chosen
  chosenOnce : s.chosen.Nodup

theorem Sound.intact (h : Sound s) : Intact s where
  headApart := (trackedIds_nodup.mp h.nodup).1
  queuedOnce := (trackedIds_nodup.mp h.nodup).2
  tracked := h.tracked
  messages := h.messages
  order := chosenOf_sublist (sublist_append_right _ _) h.order
  chosenOnce := h.chosenOnce

/-- What a reducer's record has to satisfy for the ledger to stay true of it. -/
structure Follows (s : Session) (action : Action) (next : ChatPendingTask) : Prop where
  nodup : (trackedIds (some next)).Nodup
  tracked : ∀ id ∈ waitingAfter s action, id ∈ trackedIds (some next)
  messages : ∀ id message, (knownAfter s action).get? id = some message →
    id ∈ trackedIds (some next) → Knows (some next) id message
  order : List.Sublist (chosenOf (trackedIds (some next)) (chosenAfter s next action))
    (chosenAfter s next action)

variable {action : Action}

theorem Sound.follow (h : Sound s) (hnext : Follows s action (reduce platform s action)) :
    Sound (step platform s action).2 where
  nodup := hnext.nodup
  tracked := hnext.tracked
  messages := by
    intro id message hknown
    have hknown : ((knownAfter s action).filter
        fun id _ => id ∈ trackedIds (some (reduce platform s action))).get? id = some message :=
      hknown
    rw [OrderedMap.get?_filter, Option.filter_eq_some_iff, decide_eq_true_eq] at hknown
    exact hnext.messages id message hknown.1 hknown.2
  order := hnext.order
  chosenOnce := by
    show (chosenAfter s (reduce platform s action) action).Nodup
    have hwithout : ∀ id, (without s.chosen id).Nodup := fun id => h.chosenOnce.filter _
    cases action with
    | enqueue task queued | promote taskId status createdAt waitReason => exact hwithout _
    | remove taskId => exact h.chosenOnce
    | prioritize taskId =>
      simp only [chosenAfter]
      split
      · exact (trackedIds_nodup.mp hnext.nodup).2
      · exact h.chosenOnce

variable {message : String}

theorem knownAfter_enqueue (h : (knownAfter s (.enqueue task queued)).get? id = some message) :
    (id = task.taskId ∧ task.message = some message) ∨
      ((id = task.taskId → task.message = none) ∧ s.known.get? id = some message) := by
  simp only [knownAfter] at h
  cases htask : task.message with
  | none =>
    rw [htask] at h
    exact .inr ⟨fun _ => rfl, h⟩
  | some told =>
    rw [htask] at h
    rcases OrderedMap.get?_set_cases h with ⟨hid, hmessage⟩ | ⟨hid, hknown⟩
    · exact .inl ⟨hid, by rw [hmessage]⟩
    · exact .inr ⟨fun heq => absurd heq hid, hknown⟩

/-- A task known with its message is not told without it. -/
theorem ToldAgain.not_sparse (h : ToldAgain s task) (hsparse : task.message = none) :
    s.known.get? task.taskId ≠ some message := by
  intro hknown
  have htold := h (by rw [OrderedMap.has, hknown]; rfl)
  rw [hsparse] at htold
  cases htold

theorem chosenOf_map (rows : List ChatQueuedTask) (chosen : List String) :
    chosenOf (rows.map ChatQueuedTask.taskId) chosen =
      (rows.filter (fun row => row.taskId ∈ chosen)).map ChatQueuedTask.taskId := by
  rw [chosenOf, filter_map]
  rfl

/-- A queue sorted anew behind a head. -/
theorem order_sorted (hkeeps : SortKeeps platform s task)
    (hsub : ∀ row ∈ rows, row ∈ queue s.cache ++ [task])
    (hothers : others rows task.taskId = others (queue s.cache) task.taskId) :
    chosenOf ((platform.sorting.sort (compareQueuedTasks platform) rows).map ChatQueuedTask.taskId)
      (without s.chosen task.taskId) = chosenOf (queueIds s.cache) (without s.chosen task.taskId) := by
  rw [chosenOf_map, chosen_sort hkeeps hsub hothers, queueIds, chosenOf_map]
  rfl

/-- Queued before the head is known. -/
theorem Sound.enqueue_hidden (h : Sound s) (hqueued : isQueued s task queued = true)
    (htold : ToldAgain s task) (honly : ∀ id ∈ s.waiting, id = task.taskId)
    (hhead : headId (some next) = none) (hqueue : queue (some next) = [task]) :
    Follows s (.enqueue task queued) next := by
  have htracked : trackedIds (some next) = [task.taskId] := by
    simp only [trackedIds, queueIds, hhead, hqueue, Option.toList_none, nil_append,
      map_cons, map_nil]
  constructor
  · rw [htracked]
    exact nodup_singleton _
  · intro id hid
    have hid : id ∈ task.taskId :: s.waiting := by
      simpa only [waitingAfter, hqueued, if_true] using hid
    rw [htracked, mem_singleton]
    rcases mem_cons.mp hid with hid | hid
    · exact hid
    · exact honly id hid
  · intro id message hknown hid
    rw [htracked, mem_singleton] at hid
    rcases knownAfter_enqueue hknown with ⟨_, hmessage⟩ | ⟨hsparse, hknown⟩
    · refine .inr ⟨task, ?_, hid.symm, hmessage⟩
      rw [hqueue]
      exact mem_singleton_self _
    · rw [hid] at hknown
      exact absurd hknown (htold.not_sparse (hsparse hid))
  · rw [htracked]
    apply chosenOf_without _ h.order
    simp [without]

/-- A new head: what is behind it stays behind it. -/
theorem Sound.enqueue_head (rows : List ChatQueuedTask) (h : Sound s)
    (htold : task.message = none → ∀ message, s.known.get? task.taskId = some message →
      headMessage (some next) = some message)
    (hmessage : ∀ message, task.message = some message → headMessage (some next) = some message)
    (hhead : headId (some next) = some task.taskId) (hqueue : queue (some next) = rows)
    (hnodup : (rows.map ChatQueuedTask.taskId).Nodup)
    (hrows : ∀ row ∈ rows, row ∈ queue s.cache ∧ row.taskId ≠ task.taskId)
    (hwaiting : ∀ id ∈ s.waiting, id = task.taskId ∨ id ∈ rows.map ChatQueuedTask.taskId)
    (horder : Sublist (chosenOf (rows.map ChatQueuedTask.taskId) (without s.chosen task.taskId))
      (without s.chosen task.taskId)) :
    Follows s (.enqueue task queued) next := by
  have htracked : trackedIds (some next) = task.taskId :: rows.map ChatQueuedTask.taskId := by
    simp only [trackedIds, queueIds, hhead, hqueue, Option.toList_some, singleton_append]
  constructor
  · rw [htracked, nodup_cons]
    refine ⟨?_, hnodup⟩
    intro hmem
    obtain ⟨row, hrow, hid⟩ := mem_map.mp hmem
    exact (hrows row hrow).2 hid
  · intro id hid
    rw [htracked, mem_cons]
    have hid : id = task.taskId ∨ id ∈ s.waiting := by
      simp only [waitingAfter] at hid
      split at hid
      · exact mem_cons.mp hid
      · exact .inr hid
    rcases hid with hid | hid
    · exact .inl hid
    · exact hwaiting id hid
  · intro id message hknown hid
    by_cases htask : id = task.taskId
    · refine .inl ⟨by rw [hhead, htask], ?_⟩
      rcases knownAfter_enqueue hknown with ⟨_, htaskMessage⟩ | ⟨hsparse, hknown⟩
      · exact hmessage message htaskMessage
      · rw [htask] at hknown
        exact htold (hsparse htask) message hknown
    · have hknown : s.known.get? id = some message := by
        rcases knownAfter_enqueue hknown with ⟨heq, _⟩ | ⟨_, hknown⟩
        · exact absurd heq htask
        · exact hknown
      rw [htracked, mem_cons] at hid
      have hmem := hid.resolve_left htask
      obtain ⟨row, hrow, hrowId⟩ := mem_map.mp hmem
      have hqueued : row ∈ queue s.cache := (hrows row hrow).1
      rcases h.messages id message hknown with ⟨hheadId, _⟩ | ⟨other, hother, hotherId, hmsg⟩
      · -- the head is not in the queue
        have hapart := (trackedIds_nodup.mp h.nodup).1 id hheadId
        exact absurd (mem_map.mpr ⟨row, hqueued, hrowId⟩) hapart
      · have hsame : other = row :=
          inj_on_of_nodup_map (trackedIds_nodup.mp h.nodup).2 hother hqueued
            (hotherId.trans hrowId.symm)
        refine .inr ⟨row, ?_, hrowId, hsame ▸ hmsg⟩
        rw [hqueue]
        exact hrow
  · rw [htracked]
    have hdrop : chosenOf (task.taskId :: rows.map ChatQueuedTask.taskId)
        (without s.chosen task.taskId) =
          chosenOf (rows.map ChatQueuedTask.taskId) (without s.chosen task.taskId) := by
      rw [chosenOf, filter_cons, if_neg (by simp [without])]
      rfl
    rw [show chosenAfter s next (.enqueue task queued) = without s.chosen task.taskId from rfl,
      hdrop]
    exact horder

variable {head : String}

/-- A follow-up behind the head. -/
theorem Sound.enqueue_behind (h : Sound s) (hold : headId s.cache = some head)
    (hne : head ≠ task.taskId) (hkeeps : SortKeeps platform s task)
    (hhead : headId (some next) = some head)
    (hmessage : headMessage (some next) = headMessage s.cache)
    (hqueue : queue (some next) = normalizeQueue platform (queue s.cache ++ [task])) :
    Follows s (.enqueue task queued) next := by
  obtain ⟨hapart, hnodup⟩ := trackedIds_nodup.mp h.nodup
  have hjoined := uniqueQueue_concat hnodup task
  have hrows : ∀ row, row ∈ queue (some next) ↔
      row ∈ uniqueQueue (queue s.cache ++ [task]) := by
    intro row
    rw [hqueue]
    exact platform.sorting.mem_sort
  have hperm : (queueIds (some next)).Perm
      ((uniqueQueue (queue s.cache ++ [task])).map ChatQueuedTask.taskId) := by
    rw [queueIds, hqueue]
    exact (platform.sorting.perm _ _).map _
  have hids : ∀ id, id ∈ queueIds (some next) ↔ id = task.taskId ∨ id ∈ queueIds s.cache := by
    intro id
    rw [hperm.mem_iff]
    exact hjoined.ids id
  have horder : chosenOf (queueIds (some next)) (without s.chosen task.taskId) =
      chosenOf (queueIds s.cache) (without s.chosen task.taskId) := by
    rw [queueIds, hqueue]
    exact order_sorted hkeeps (fun row hrow => mem_uniqueQueue hrow) hjoined.others
  have htrackedAll : ∀ id ∈ trackedIds s.cache, id ∈ trackedIds (some next) := by
    intro id hid
    rw [mem_trackedIds] at hid ⊢
    rcases hid with hid | hid
    · rw [hold] at hid
      exact .inl (hhead.trans hid)
    · exact .inr ((hids id).mpr (.inr hid))
  constructor
  · rw [trackedIds_nodup]
    constructor
    · intro id hid hmem
      rw [hhead, Option.some.injEq] at hid
      rcases (hids id).mp hmem with heq | hmem
      · exact hne (hid.trans heq)
      · exact hapart id (by rw [hold, hid]) hmem
    · exact hperm.nodup_iff.mpr hjoined.nodup
  · intro id hid
    simp only [waitingAfter] at hid
    split at hid
    · rcases mem_cons.mp hid with hid | hid
      · rw [mem_trackedIds]
        exact .inr ((hids id).mpr (.inl hid))
      · exact htrackedAll id (h.tracked id hid)
    · exact htrackedAll id (h.tracked id hid)
  · intro id message hknown _
    rcases knownAfter_enqueue hknown with ⟨hid, htold⟩ | ⟨hsparse, hknown⟩
    · refine .inr ⟨task, ?_, hid.symm, htold⟩
      rw [hrows]
      exact hjoined.told (by rw [htold]; rfl)
    · rcases h.messages id message hknown with ⟨hid, hheadMessage⟩ | ⟨row, hrow, hid, hrowMessage⟩
      · rw [hold] at hid
        exact .inl ⟨hhead.trans hid, hmessage.trans hheadMessage⟩
      · refine .inr ⟨row, ?_, hid, hrowMessage⟩
        rw [hrows]
        by_cases htask : id = task.taskId
        · exact hjoined.kept (hsparse htask) row hrow (hid.trans htask)
        · have hother : row ∈ others (queue s.cache) task.taskId :=
            mem_others.mpr ⟨hrow, fun heq => htask (hid.symm.trans heq)⟩
          rw [← hjoined.others] at hother
          exact (mem_others.mp hother).1
  · have hsplit : ∀ current : Option ChatPendingTask, headId current = some head →
        chosenOf (trackedIds current) (without s.chosen task.taskId) =
          chosenOf [head] (without s.chosen task.taskId) ++
            chosenOf (queueIds current) (without s.chosen task.taskId) := by
      intro current hcurrent
      rw [trackedIds, hcurrent]
      exact filter_append _ _
    show Sublist (chosenOf (trackedIds (some next)) (without s.chosen task.taskId))
      (without s.chosen task.taskId)
    rw [hsplit _ hhead, horder, ← hsplit _ hold]
    exact chosenOf_without filter_sublist h.order

theorem truthy_eq_some {text : Option String} {value : String} :
    truthy text = some value ↔ text = some value ∧ value ≠ "" := by
  simp [truthy, Option.filter_eq_some_iff]

/-- A cache with a head to read is a record. -/
theorem pending_of_truthy (hhead : truthy (headId s.cache) = some head) :
    ∃ pending, s.cache = some pending ∧ queue s.cache = pending.queue ∧
      headId s.cache = some head ∧ pending.taskId = some head := by
  have hheadId := (truthy_eq_some.mp hhead).1
  cases hcache : s.cache with
  | none =>
    rw [hcache] at hheadId
    cases hheadId
  | some pending =>
    rw [hcache] at hheadId
    exact ⟨pending, rfl, rfl, hheadId, hheadId⟩

theorem others_eq_self {rows : List ChatQueuedTask} {id : String}
    (h : ∀ row ∈ rows, row.taskId ≠ id) : others rows id = rows := by
  apply filter_eq_self.mpr
  intro row hrow
  exact decide_eq_true (h row hrow)

theorem Sound.enqueue (h : Sound s) (task : ChatQueuedTask) (queued : Option Bool)
    (hkeeps : Keeps platform s (.enqueue task queued)) :
    Follows s (.enqueue task queued) (reduce platform s (.enqueue task queued)) := by
  obtain ⟨hapart, hnodup⟩ := trackedIds_nodup.mp h.nodup
  simp only [reduce, enqueuePendingChatTask]
  simp only [Keeps] at hkeeps
  have hothers : ((others (queue s.cache) task.taskId).map ChatQueuedTask.taskId).Nodup := by
    rw [without_ids]
    exact hnodup.filter _
  have hbehind : ∀ id ∈ queueIds s.cache, id ≠ task.taskId →
      id ∈ (others (queue s.cache) task.taskId).map ChatQueuedTask.taskId := by
    intro id hid hne
    rw [without_ids]
    exact mem_without.mpr ⟨hid, hne⟩
  have hkept : Sublist
      (chosenOf ((others (queue s.cache) task.taskId).map ChatQueuedTask.taskId)
        (without s.chosen task.taskId)) (without s.chosen task.taskId) := by
    apply chosenOf_without _ h.order
    rw [without_ids]
    exact (filter_sublist.trans filter_sublist).trans (sublist_append_right _ _)
  cases hhead : truthy (headId s.cache) with
  | none =>
    rw [hhead] at hkeeps
    obtain ⟨htold, hkeeps⟩ := hkeeps
    cases hqueued : isQueued s task queued with
    | true =>
      rw [hqueued, if_pos rfl] at hkeeps
      apply h.enqueue_hidden hqueued htold hkeeps <;> cases s.cache <;> rfl
    | false =>
      rw [hqueued, if_neg Bool.false_ne_true] at hkeeps
      obtain ⟨hroot, hsort⟩ := hkeeps
      have hunique := uniqueQueue_of_nodup hothers
      have hperm := platform.sorting.perm (compareQueuedTasks platform)
        (others (queue s.cache) task.taskId)
      have hnext : ∀ next, next = asHead task (s.cache.bind ChatPendingTask.supportsQueue)
          (normalizeQueue platform (others (queue s.cache) task.taskId)) →
          Follows s (.enqueue task queued) next := by
        rintro next rfl
        apply Sound.enqueue_head (normalizeQueue platform
          (others (queue s.cache) task.taskId)) h _ _ rfl rfl
        · rw [normalizeQueue, hunique]
          exact (hperm.map _).nodup_iff.mpr hothers
        · intro row hrow
          rw [normalizeQueue, hunique, platform.sorting.mem_sort] at hrow
          exact mem_others.mp hrow
        · intro id hid
          rw [normalizeQueue, hunique, (hperm.map _).mem_iff]
          by_cases htask : id = task.taskId
          · exact .inl htask
          · rcases mem_trackedIds.mp (h.tracked id hid) with hroot' | hmem
            · exact .inl (hroot id hid hroot')
            · exact .inr (hbehind id hmem htask)
        · rw [normalizeQueue, hunique, order_sorted hsort
            (fun row hrow => mem_append_left _ (mem_others.mp hrow).1)
            (by simp [others, filter_filter])]
          exact chosenOf_without (filter_sublist.trans (sublist_append_right _ _))
            h.order
        · intro hsparse message hknown
          exact absurd hknown (htold.not_sparse hsparse)
        · intro message hmessage
          exact hmessage
      apply hnext
      cases s.cache <;> rfl
  | some head =>
    rw [hhead] at hkeeps
    obtain ⟨pending, hcache, hqueue, hheadId, _⟩ := pending_of_truthy hhead
    rw [hcache]
    dsimp only at hkeeps ⊢
    by_cases htask : head = task.taskId
    · -- the head itself, told again
      rw [if_pos htask] at hkeeps ⊢
      have hrowApart : ∀ row ∈ queue s.cache, row.taskId ≠ task.taskId := by
        intro row hrow hid
        exact hapart head hheadId (mem_map.mpr ⟨row, hrow, hid.trans htask.symm⟩)
      apply Sound.enqueue_head (others pending.queue task.taskId) h _ _ rfl rfl
      · rw [← hqueue]
        exact hothers
      · intro row hrow
        rw [← hqueue] at hrow
        exact mem_others.mp hrow
      · intro id hid
        rw [← hqueue]
        by_cases hsame : id = task.taskId
        · exact .inl hsame
        · rcases mem_trackedIds.mp (h.tracked id hid) with hroot | hmem
          · rw [hheadId, Option.some.injEq] at hroot
            exact absurd (hroot.symm.trans htask) hsame
          · exact .inr (hbehind id hmem hsame)
      · rw [← hqueue]
        exact hkept
      · intro hsparse message hknown
        have hold : headMessage s.cache = some message := by
          rcases h.messages _ message hknown with ⟨_, hmessage⟩ | ⟨row, hrow, hid, _⟩
          · exact hmessage
          · exact absurd hid (hrowApart row hrow)
        have hnone : task.messageId = none := by
          cases hmessageId : task.messageId with
          | none => rfl
          | some told =>
            rw [ChatQueuedTask.message, hmessageId] at hsparse
            have hempty : told = "" := by simpa [truthy] using hsparse
            have hunknown := hkeeps (by rw [hmessageId, hempty])
            rw [OrderedMap.has_eq_false_iff, htask, hknown] at hunknown
            cases hunknown
        rw [hnone, Option.none_or]
        rw [hcache] at hold
        exact hold
      · intro message hmessage
        have hmessageId := (truthy_eq_some.mp hmessage).1
        rw [hmessageId, Option.some_or]
        exact truthy_eq_some.mpr ⟨rfl, (truthy_eq_some.mp hmessage).2⟩
    · rw [if_neg htask] at hkeeps ⊢
      cases hqueued : isQueued s task queued with
      | true =>
        rw [hqueued, if_pos rfl] at hkeeps
        rw [if_neg (by decide)]
        apply h.enqueue_behind hheadId htask hkeeps
        · rw [← hheadId, hcache]
          rfl
        · rw [hcache]
          rfl
        · rw [hqueue]
          rfl
      | false =>
        rw [hqueued, if_neg Bool.false_ne_true] at hkeeps
        rw [if_pos rfl]
        obtain ⟨htold, honly⟩ := hkeeps
        apply Sound.enqueue_head [] h _ _ rfl rfl
        · exact nodup_nil
        · intro row hrow
          cases hrow
        · exact fun id hid => .inl (honly id hid)
        · exact nil_sublist _
        · intro hsparse message hknown
          exact absurd hknown (htold.not_sparse hsparse)
        · intro message hmessage
          exact hmessage

/-- A record whose rows are those of the cache, less some that no longer wait. -/
theorem Sound.promote_unknown (h : Sound s) (taskId status : String)
    (createdAt waitReason : Option String) (htracked : trackedIds (some next) = trackedIds s.cache)
    (hknows : ∀ id message, Knows s.cache id message → Knows (some next) id message) :
    Follows s (.promote taskId status createdAt waitReason) next := by
  constructor
  · rw [htracked]
    exact h.nodup
  · intro id hid
    rw [htracked]
    exact h.tracked id (mem_without.mp hid).1
  · intro id message hknown _
    exact hknows id message (h.messages id message hknown)
  · show Sublist (chosenOf (trackedIds (some next)) (without s.chosen taskId)) _
    rw [htracked]
    exact chosenOf_without filter_sublist h.order

/-- A follow-up goes to the head; the head before it goes to the front of the
queue if it was still queued itself. -/
theorem Sound.promote_queued {pending : ChatPendingTask} {promoted : ChatQueuedTask} (h : Sound s)
    (status : String) (createdAt waitReason : Option String) (hcache : s.cache = some pending)
    (hhead : truthy pending.taskId = some head) (hpromoted : promoted ∈ pending.queue)
    (hne : head ≠ promoted.taskId)
    (hkeeps : if pending.status.getD "queued" = "queued" then s.known.has head = false else head ∉ s.waiting)
    (hheadId : headId (some next) = some promoted.taskId)
    (hmessage : headMessage (some next) = promoted.message)
    (hqueue : queue (some next) = uniqueQueue (((asSummary pending).filter (·.status = "queued")).toList ++ others pending.queue promoted.taskId)) :
    Follows s (.promote promoted.taskId status createdAt waitReason) next := by
  obtain ⟨hapart, hnodup⟩ := trackedIds_nodup.mp h.nodup
  have holdQueue : queue s.cache = pending.queue := by rw [hcache]; rfl
  have holdHead : headId s.cache = some head := by
    rw [hcache]
    exact (truthy_eq_some.mp hhead).1
  rw [← holdQueue] at hpromoted hqueue
  let previous := (asSummary pending).filter (·.status = "queued")
  have hprevious : ∀ row ∈ previous.toList,
      row.taskId = head ∧ pending.status.getD "queued" = "queued" := by
    intro row hrow
    rw [Option.mem_toList, Option.filter_eq_some_iff, asSummary, hhead] at hrow
    obtain ⟨hrow, hstatus⟩ := hrow
    rw [Option.map_some, Option.some.injEq] at hrow
    subst hrow
    exact ⟨rfl, by simpa using hstatus⟩
  have hpreviousIds : Sublist (previous.toList.map ChatQueuedTask.taskId) [head] := by
    cases hcase : previous with
    | none => exact nil_sublist _
    | some row =>
      have hrow := (hprevious row (by rw [hcase]; exact mem_singleton_self _)).1
      simp [hrow]
  have hids : (previous.toList ++ others (queue s.cache) promoted.taskId).map ChatQueuedTask.taskId =
      previous.toList.map ChatQueuedTask.taskId ++ without (queueIds s.cache) promoted.taskId := by
    rw [map_append, without_ids]
    rfl
  have hrowsNodup : ((previous.toList ++ others (queue s.cache) promoted.taskId).map
      ChatQueuedTask.taskId).Nodup := by
    rw [hids]
    have hall : (head :: queueIds s.cache).Nodup := by
      have hnodup := h.nodup
      rw [trackedIds, holdHead] at hnodup
      exact hnodup
    exact (hpreviousIds.append filter_sublist).nodup hall
  rw [uniqueQueue_of_nodup hrowsNodup] at hqueue
  have hqueueIds : queueIds (some next) =
      previous.toList.map ChatQueuedTask.taskId ++ without (queueIds s.cache) promoted.taskId := by
    rw [queueIds, hqueue, hids]
  constructor
  · rw [trackedIds_nodup]
    constructor
    · intro id hid hmem
      rw [hheadId, Option.some.injEq] at hid
      rw [hqueueIds, mem_append, ← hid] at hmem
      rcases hmem with hmem | hmem
      · have hhead := mem_singleton.mp (hpreviousIds.subset hmem)
        exact hne hhead.symm
      · exact (mem_without.mp hmem).2 rfl
    · rw [hqueueIds, ← hids]
      exact hrowsNodup
  · intro id hid
    obtain ⟨hid, hother⟩ := mem_without.mp hid
    rw [mem_trackedIds, hqueueIds, mem_append]
    rcases mem_trackedIds.mp (h.tracked id hid) with hroot | hmem
    · rw [holdHead, Option.some.injEq] at hroot
      by_cases hstatus : pending.status.getD "queued" = "queued"
      · have hsome : previous = some ⟨head, pending.status.getD "queued",
            pending.createdAt.getD "", none, none⟩ := by
          rw [Option.filter_eq_some_iff, asSummary, hhead]
          exact ⟨rfl, by simpa using hstatus⟩
        exact .inr (.inl (by rw [hsome, ← hroot]; exact mem_singleton_self _))
      · rw [if_neg hstatus, hroot] at hkeeps
        exact absurd hid hkeeps
    · exact .inr (.inr (mem_without.mpr ⟨hmem, hother⟩))
  · intro id message hknown hid
    have hknows := h.messages id message hknown
    rw [mem_trackedIds, hheadId, Option.some.injEq, hqueueIds, mem_append] at hid
    rcases hid with hid | hid | hid
    · -- the promoted one takes its message along
      rcases hknows with ⟨hroot, _⟩ | ⟨row, hrow, hrowId, hrowMessage⟩
      · rw [holdHead, Option.some.injEq] at hroot
        exact absurd (hroot.trans hid.symm) hne
      · have hsame : row = promoted :=
          inj_on_of_nodup_map hnodup hrow hpromoted (hrowId.trans hid.symm)
        rw [hsame] at hrowMessage
        exact .inl ⟨hheadId.trans (congrArg some hid), hmessage.trans hrowMessage⟩
    · -- of the head only a summary is kept
      obtain ⟨row, hrow, hrowId⟩ := mem_map.mp hid
      obtain ⟨hsummary, hstatus⟩ := hprevious row hrow
      have hknown : s.known.get? id = some message := hknown
      rw [if_pos hstatus, OrderedMap.has_eq_false_iff, ← hsummary, hrowId, hknown] at hkeeps
      cases hkeeps
    · obtain ⟨hmem, hother⟩ := mem_without.mp hid
      rcases hknows with ⟨hroot, _⟩ | ⟨row, hrow, hrowId, hrowMessage⟩
      · exact absurd hmem (hapart id hroot)
      · refine .inr ⟨row, ?_, hrowId, hrowMessage⟩
        rw [hqueue, mem_append]
        exact .inr (mem_others.mpr ⟨hrow, fun heq => hother (hrowId.symm.trans heq)⟩)
  · show Sublist (chosenOf (trackedIds (some next)) (without s.chosen promoted.taskId)) _
    apply chosenOf_without _ h.order
    have htracked : trackedIds (some next) = promoted.taskId :: queueIds (some next) := by
      rw [trackedIds, hheadId]
      rfl
    have hdrop : without (trackedIds (some next)) promoted.taskId =
        without (queueIds (some next)) promoted.taskId := by
      rw [htracked, without, filter_cons, if_neg (by simp)]
      rfl
    have hold : trackedIds s.cache = [head] ++ queueIds s.cache := by
      rw [trackedIds, holdHead]
      rfl
    rw [hdrop, hqueueIds, hold]
    exact filter_sublist.trans (hpreviousIds.append filter_sublist)

theorem Sound.promote (h : Sound s) (taskId status : String) (createdAt waitReason : Option String)
    (hkeeps : Keeps platform s (.promote taskId status createdAt waitReason)) :
    Follows s (.promote taskId status createdAt waitReason)
      (reduce platform s (.promote taskId status createdAt waitReason)) := by
  obtain ⟨hapart, hnodup⟩ := trackedIds_nodup.mp h.nodup
  simp only [reduce, promotePendingChatTask]
  simp only [Keeps] at hkeeps
  cases hcache : s.cache with
  | none =>
    apply h.promote_unknown
    · rw [hcache]
      rfl
    · intro id message hknows
      rw [hcache] at hknows
      rcases hknows with ⟨hid, _⟩ | ⟨row, hrow, _⟩
      · cases hid
      · cases hrow
  | some pending =>
    have hqueue : queue s.cache = pending.queue := by rw [hcache]; rfl
    have hheadId : headId s.cache = pending.taskId := by rw [hcache]; rfl
    dsimp only
    by_cases hself : pending.taskId = some taskId
    · -- the head itself goes on
      rw [if_pos hself]
      have hrowApart : others pending.queue taskId = pending.queue := by
        apply others_eq_self
        intro row hrow hid
        rw [← hqueue] at hrow
        exact hapart taskId (hheadId.trans hself) (mem_map.mpr ⟨row, hrow, hid⟩)
      rw [hrowApart]
      apply h.promote_unknown
      · rw [hcache]
        rfl
      · intro id message hknows
        rw [hcache] at hknows
        exact hknows
    · rw [if_neg hself]
      cases hhead : truthy pending.taskId with
      | none =>
        apply h.promote_unknown
        · rw [hcache]
        · intro id message hknows
          rw [hcache] at hknows
          exact hknows
      | some head =>
        have hhead' : headId s.cache = some head :=
          hheadId.trans (truthy_eq_some.mp hhead).1
        cases hfind : pending.queue.find? (·.taskId = taskId) with
        | none =>
          apply h.promote_unknown
          · rw [hcache]
          · intro id message hknows
            rw [hcache] at hknows
            exact hknows
        | some promoted =>
          have hpromoted : promoted ∈ queue s.cache := by
            rw [hqueue]
            exact mem_of_find?_eq_some hfind
          have hpromotedId : promoted.taskId = taskId := by
            simpa using find?_some hfind
          have hkept := hkeeps pending hcache head hhead hself
            (mem_map.mpr ⟨promoted, hpromoted, hpromotedId⟩)
          have hheadNe : head ≠ promoted.taskId := by
            intro heq
            exact hself (by rw [(truthy_eq_some.mp hhead).1, heq, hpromotedId])
          rw [hqueue] at hpromoted
          subst hpromotedId
          exact h.promote_queued status createdAt waitReason hcache hhead hpromoted hheadNe
            hkept rfl rfl rfl

/-- The cache is emptied although only a hidden queue was known. -/
theorem follows_empty (hwaiting : waitingAfter s action = []) :
    Follows s action emptyPendingTask := by
  constructor
  · exact nodup_nil
  · rw [hwaiting]
    exact nofun
  · intro id message _ hid
    cases hid
  · exact nil_sublist _

theorem Sound.remove (h : Sound s) (taskId : String) (hkeeps : Keeps platform s (.remove taskId)) :
    Follows s (.remove taskId) (reduce platform s (.remove taskId)) := by
  obtain ⟨hapart, hnodup⟩ := trackedIds_nodup.mp h.nodup
  simp only [reduce, removePendingChatTask]
  simp only [Keeps] at hkeeps
  cases hhead : truthy (headId s.cache) with
  | none =>
    have hwaiting : waitingAfter s (.remove taskId) = [] := by
      apply filter_eq_nil_iff.mpr
      intro id hid
      simp [hkeeps hhead id hid]
    cases s.cache <;> exact follows_empty hwaiting
  | some head =>
    obtain ⟨pending, hcache, hqueue, hheadId, hpending⟩ := pending_of_truthy hhead
    rw [hcache]
    have hothers : ((others pending.queue taskId).map ChatQueuedTask.taskId).Nodup := by
      rw [without_ids, ← hqueue]
      exact hnodup.filter _
    dsimp only
    by_cases hself : head ≠ taskId
    · rw [if_pos hself]
      have hqueueIds : queueIds (some { pending with
          queuedTasks := some (others pending.queue taskId) }) =
          without (queueIds s.cache) taskId := by
        rw [queueIds, queueIds, hqueue]
        exact without_ids _ _
      have htracked : trackedIds (some { pending with
          queuedTasks := some (others pending.queue taskId) }) =
          [head] ++ without (queueIds s.cache) taskId := by
        rw [trackedIds, hqueueIds]
        rw [hpending]
        rfl
      have hsub : Sublist ([head] ++ without (queueIds s.cache) taskId)
          (trackedIds s.cache) := by
        rw [trackedIds, hheadId]
        exact (Sublist.refl _).append filter_sublist
      constructor
      · rw [htracked]
        exact hsub.nodup h.nodup
      · intro id hid
        obtain ⟨hid, hother⟩ := mem_without.mp hid
        rw [htracked, mem_append, mem_singleton]
        rcases mem_trackedIds.mp (h.tracked id hid) with hroot | hmem
        · rw [hheadId, Option.some.injEq] at hroot
          exact .inl hroot.symm
        · exact .inr (mem_without.mpr ⟨hmem, hother⟩)
      · intro id message hknown hid
        rcases h.messages id message hknown with ⟨hroot, hmessage⟩ | ⟨row, hrow, hrowId, hmsg⟩
        · rw [hcache] at hroot hmessage
          exact .inl ⟨hroot, hmessage⟩
        · refine .inr ⟨row, ?_, hrowId, hmsg⟩
          have hother : id ≠ taskId := by
            rw [htracked, mem_append, mem_singleton] at hid
            rcases hid with hid | hid
            · rw [hid]
              exact hself
            · exact (mem_without.mp hid).2
          rw [hqueue] at hrow
          exact mem_others.mpr ⟨hrow, fun heq => hother (hrowId.symm.trans heq)⟩
      · rw [htracked]
        exact chosenOf_sublist hsub h.order
    · -- the head is gone: the first follow-up is the head now
      have hself : head = taskId := not_not.mp hself
      rw [if_neg (not_not.mpr hself), uniqueQueue_of_nodup hothers]
      have hall : others pending.queue taskId = queue s.cache := by
        rw [hqueue]
        apply others_eq_self
        intro row hrow hid
        rw [← hqueue] at hrow
        exact hapart head hheadId (mem_map.mpr ⟨row, hrow, hid.trans hself.symm⟩)
      have hwaiting : ∀ id ∈ waitingAfter s (.remove taskId), id ∈ queueIds s.cache := by
        intro id hid
        obtain ⟨hid, hother⟩ := mem_without.mp hid
        rcases mem_trackedIds.mp (h.tracked id hid) with hroot | hmem
        · rw [hheadId, Option.some.injEq] at hroot
          exact absurd (hroot.symm.trans hself) hother
        · exact hmem
      rw [hall]
      cases hrows : queue s.cache with
      | nil =>
        apply follows_empty
        apply eq_nil_iff_forall_not_mem.mpr
        intro id hid
        have hmem := hwaiting id hid
        rw [queueIds, hrows] at hmem
        cases hmem
      | cons first rest =>
        have hids : queueIds s.cache = first.taskId :: rest.map ChatQueuedTask.taskId := by
          rw [queueIds, hrows]
          rfl
        have htracked : trackedIds (some (asHead first pending.supportsQueue rest)) =
            queueIds s.cache := by
          rw [hids]
          rfl
        constructor
        · rw [htracked]
          exact hnodup
        · intro id hid
          rw [htracked]
          exact hwaiting id hid
        · intro id message hknown hid
          rw [htracked] at hid
          rcases h.messages id message hknown with ⟨hroot, _⟩ | ⟨row, hrow, hrowId, hmsg⟩
          · exact absurd hid (hapart id hroot)
          · rw [hrows, mem_cons] at hrow
            rcases hrow with rfl | hrow
            · exact .inl ⟨congrArg some hrowId, hmsg⟩
            · exact .inr ⟨row, hrow, hrowId, hmsg⟩
        · rw [htracked]
          exact chosenOf_sublist (sublist_append_right _ _) h.order

theorem Sound.prioritize (h : Sound s) (taskId : String)
    (hkeeps : Keeps platform s (.prioritize taskId)) :
    Follows s (.prioritize taskId) (reduce platform s (.prioritize taskId)) := by
  obtain ⟨hapart, hnodup⟩ := trackedIds_nodup.mp h.nodup
  simp only [reduce, prioritizePendingChatTask]
  simp only [Keeps] at hkeeps
  cases hhead : truthy (headId s.cache) with
  | none => cases hcache : s.cache <;> exact follows_empty (hkeeps hhead)
  | some head =>
    obtain ⟨pending, hcache, hqueue, hheadId, hpending⟩ := pending_of_truthy hhead
    rw [hcache]
    dsimp only
    cases hfind : pending.queue.find? (·.taskId = taskId) with
    | none =>
      have hreorders : reorders s taskId = false := by
        have hmissing : taskId ∉ queueIds s.cache := by
          rw [queueIds, hqueue]
          intro hmem
          obtain ⟨row, hrow, hid⟩ := mem_map.mp hmem
          have hno := find?_eq_none.mp hfind row hrow
          exact hno (by simpa using hid)
        simp [reorders, hmissing]
      constructor
      · rw [← hcache]
        exact h.nodup
      · rw [← hcache]
        exact h.tracked
      · intro id message hknown _
        rw [← hcache]
        exact h.messages id message hknown
      · rw [chosenAfter, hreorders, if_neg Bool.false_ne_true, ← hcache]
        exact h.order
    | some selected =>
      have hselected : selected ∈ queue s.cache := by
        rw [hqueue]
        exact mem_of_find?_eq_some hfind
      have hselectedId : selected.taskId = taskId := by
        simpa using find?_some hfind
      have hreorders : reorders s taskId = true := by
        have hmem : taskId ∈ queueIds s.cache :=
          mem_map.mpr ⟨selected, hselected, hselectedId⟩
        simp [reorders, hhead, hmem]
      have hrows : ∀ row, row ∈ selected :: others pending.queue taskId ↔
          row ∈ queue s.cache := by
        intro row
        rw [mem_cons, mem_others, ← hqueue]
        constructor
        · rintro (rfl | hrow)
          · exact hselected
          · exact hrow.1
        · intro hrow
          by_cases hid : row.taskId = taskId
          · exact .inl (inj_on_of_nodup_map hnodup hrow hselected
              (hid.trans hselectedId.symm))
          · exact .inr ⟨hrow, hid⟩
      let next : ChatPendingTask :=
        { pending with queuedTasks := some (selected :: others pending.queue taskId) }
      have hids : ∀ id, id ∈ queueIds (some next) ↔ id ∈ queueIds s.cache := by
        intro id
        simp only [queueIds, mem_map]
        constructor
        · rintro ⟨row, hrow, hid⟩
          exact ⟨row, (hrows row).mp hrow, hid⟩
        · rintro ⟨row, hrow, hid⟩
          exact ⟨row, (hrows row).mpr hrow, hid⟩
      have hnextHead : headId (some next) = some head := hpending
      have hnextNodup : (queueIds (some next)).Nodup := by
        have hcons : queueIds (some next) = taskId :: without (queueIds s.cache) taskId := by
          rw [queueIds, queueIds, hqueue, ← without_ids]
          show selected.taskId :: _ = _
          rw [hselectedId]
        rw [hcons, nodup_cons]
        exact ⟨fun hmem => (mem_without.mp hmem).2 rfl, hnodup.filter _⟩
      have hnextApart : head ∉ queueIds (some next) := by
        rw [hids]
        exact hapart head hheadId
      constructor
      · rw [trackedIds_nodup]
        refine ⟨?_, hnextNodup⟩
        intro id hid
        rw [hnextHead, Option.some.injEq] at hid
        rw [← hid]
        exact hnextApart
      · intro id hid
        rw [mem_trackedIds, hids, hnextHead, ← hheadId]
        exact mem_trackedIds.mp (h.tracked id hid)
      · intro id message hknown _
        rcases h.messages id message hknown with ⟨hroot, hmsg⟩ | ⟨row, hrow, hrowId, hmsg⟩
        · rw [hcache] at hroot hmsg
          exact .inl ⟨hroot, hmsg⟩
        · exact .inr ⟨row, (hrows row).mpr hrow, hrowId, hmsg⟩
      · rw [chosenAfter, hreorders, if_pos rfl]
        have htracked : trackedIds (some next) = head :: queueIds (some next) := by
          rw [trackedIds, hnextHead]
          rfl
        rw [htracked, chosenOf, filter_cons, if_neg (by simpa using hnextApart)]
        exact filter_sublist

theorem Sound.step (h : Sound s) (action : Action)
    (hkeeps : Keeps platform s action) : Sound (step platform s action).2 := by
  apply h.follow
  cases action with
  | enqueue task queued => exact h.enqueue task queued hkeeps
  | promote taskId status createdAt waitReason =>
    exact h.promote taskId status createdAt waitReason hkeeps
  | remove taskId => exact h.remove taskId hkeeps
  | prioritize taskId => exact h.prioritize taskId hkeeps

theorem sound_init : Sound init := ⟨nodup_nil, nofun, nofun, nil_sublist _, nodup_nil⟩

/-- In a run of steps that `Keeps` describes, everything promised holds of every
state. -/
theorem queue_intact {platform : Platform} {c : Cfg}
    (h : Reach (step platform) (fun c action => Keeps platform c.state action)
      (start init) c) : Intact c.state := by
  have hsound : Sound c.state := by
    apply Reach.invariant (I := fun c => Sound c.state) _ h
    · exact sound_init
    · intro d action hkeeps hd
      exact hd.step action hkeeps
  exact hsound.intact

/-! ## Runs to check by evaluation -/

instance (platform : Platform) (s : Session) (task : ChatQueuedTask) :
    Decidable (SortKeeps platform s task) :=
  inferInstanceAs (Decidable (_ → _))

instance (s : Session) (task : ChatQueuedTask) : Decidable (ToldAgain s task) :=
  inferInstanceAs (Decidable (_ → _))

instance decidableKeeps (platform : Platform) (s : Session) :
    (action : Action) → Decidable (Keeps platform s action)
  | .enqueue task queued => by
      simp only [Keeps]
      split <;> infer_instance
  | .promote taskId _ _ _ =>
    inferInstanceAs (Decidable (∀ pending ∈ s.cache, ∀ head ∈ truthy pending.taskId,
      pending.taskId ≠ some taskId → taskId ∈ queueIds s.cache →
        if pending.status.getD "queued" = "queued" then s.known.has head = false
        else head ∉ s.waiting))
  | .remove taskId =>
    inferInstanceAs (Decidable (truthy (headId s.cache) = none → ∀ id ∈ s.waiting, id = taskId))
  | .prioritize _ =>
    inferInstanceAs (Decidable (truthy (headId s.cache) = none → s.waiting = []))

/-- Texts as the platform compares them where they are plain: by their letters. -/
def letters : String → String → Int := fun a b => if a < b then -1 else if b < a then 1 else 0

/-- Three moments of a morning. -/
def plain : Platform where
  sorting := Sorting.insertion
  dateParse text :=
    if text = "2026-01-01T09:00:00Z" then some 1767258000000
    else if text = "2026-01-01T09:01:00Z" then some 1767258060000
    else if text = "2026-01-01T09:02:00Z" then some 1767258120000
    else none
  localeCompare := letters

def sent (id minute : String) : ChatQueuedTask :=
  ⟨id, "queued", "2026-01-01T09:0" ++ minute ++ ":00Z", some ("message-" ++ id), none⟩

/-- A running task with two follow-ups, the later of them sent now. -/
def sentNow : List Action :=
  [.enqueue (sent "a" "0") (some false), .promote "a" "running" none none,
    .enqueue (sent "b" "1") none, .enqueue (sent "c" "2") none, .prioritize "c",
    .remove "a", .promote "c" "running" none none]

theorem queue_intact_sentNow :
    Intact (exec (step plain) (start init) sentNow).state :=
  queue_intact (reach_exec (by decide +kernel))

/-- Two follow-ups are accepted before the client has loaded the head. -/
def twoHidden : List Action :=
  [.enqueue (sent "b" "1") (some true), .enqueue (sent "c" "2") (some true)]

theorem twoHidden_loses :
    Reach (step plain) (fun _ _ => True) (start init)
        (exec (step plain) (start init) twoHidden) ∧
      ¬ Intact (exec (step plain) (start init) twoHidden).state := by
  refine ⟨reach_exec (allAllowed_of_forall (fun _ _ => trivial) _ _), ?_⟩
  intro h
  have hlost := h.tracked "b" (by decide)
  revert hlost
  decide

end ClawMessenger.Ports.PendingChat
