import ClawMessenger.Verified.Machine
import ClawMessenger.Verified.RowCounts

/-!
# The task queue of the agents

The statements on `agent_task_queue` that make a task or move it between its
states (`server/pkg/db/queries/agent.sql`, `chat.sql`, `autopilot.sql`,
`runtime.sql`) and the claim transaction of `server/internal/service/task.go`.

A statement is atomic: it is a condition on rows and what it sets on those that
satisfy it (`Change`), and it fails as a whole where the unique index of pending
tasks would be violated.  A claim is a transaction of several steps; its row
lock on the agent and then on the task keeps others away until it commits.
-/

namespace ClawMessenger.Ports.TaskQueue

open Verified

/-! ## Tables -/

inductive Status
  | deferred
  | queued
  | dispatched
  | waitingLocalDirectory
  | running
  | completed
  | failed
  | cancelled
  deriving DecidableEq, Repr

/-- `IN ('dispatched', 'running', 'waiting_local_directory')` -/
def Status.active (status : Status) : Bool :=
  status = .dispatched || status = .running || status = .waitingLocalDirectory

/-- `IN ('queued', 'dispatched', 'running', 'waiting_local_directory', 'deferred')` -/
def Status.unfinished (status : Status) : Bool :=
  status.active || status = .queued || status = .deferred

/-- `agent_task_queue` -/
structure Task where
  id : Nat
  agentId : Nat
  runtimeId : Option Nat
  issueId : Option Nat
  chatSessionId : Option Nat
  autopilotRunId : Option Nat
  status : Status
  priority : Int
  createdAt : Nat
  dispatchedAt : Option Nat
  startedAt : Option Nat
  completedAt : Option Nat
  prepareLeaseExpiresAt : Option Nat
  fireAt : Option Nat
  triggerCommentId : Option Nat
  coalescedCommentIds : List Nat
  parentTaskId : Option Nat
  retryOfTaskId : Option Nat
  escalationForTaskId : Option Nat
  failureReason : Option String
  /-- `context->>'channel_issue_media_pending' = 'true'` -/
  channelIssueMediaPending : Bool
  deriving DecidableEq, Repr

/-- `agent`; the limit is validated to lie between 1 and 50 before it is stored. -/
structure Agent where
  runtimeId : Option Nat
  ownerId : Option Nat
  maxConcurrentTasks : Nat

/-- `agent_runtime` -/
structure Runtime where
  isPublic : Bool
  ownerId : Option Nat
  online : Bool
  lastSeenAt : Option Nat
  updatedAt : Nat

structure Db where
  agents : Nat → Option Agent
  runtimes : Nat → Option Runtime
  tasks : List Task

def Db.empty : Db := ⟨fun _ => none, fun _ => none, []⟩

/-- `a = b`, which is not true of `NULL`. -/
def equal (a b : Option Nat) : Bool := a.isSome && a = b

/-- `a < b`, which is not true of `NULL`. -/
def before (a : Option Nat) (b : Nat) : Bool := a.any fun time => time < b

/-! ## Conditions that several statements share -/

/-- `COALESCE(r.last_seen_at, r.updated_at)` -/
def Runtime.seenAt (r : Runtime) : Nat := r.lastSeenAt.getD r.updatedAt

/-- The runtime is online and its last heartbeat is recent. -/
def Runtime.healthy (r : Runtime) (now staleSecs : Nat) : Bool := r.online && now - staleSecs ≤ r.seenAt

def Db.runtimeOf (db : Db) (t : Task) : Option Runtime := t.runtimeId.bind db.runtimes

/-- The agent is still bound to the task's runtime, which may run it. -/
def Db.authorized (db : Db) (t : Task) : Bool :=
  match db.agents t.agentId, db.runtimeOf t with
  | some a, some r => equal a.runtimeId t.runtimeId &&
      (r.isPublic || r.ownerId.isNone || a.ownerId.isNone || equal r.ownerId a.ownerId)
  | _, _ => false

def Db.healthyRuntime (db : Db) (t : Task) (now staleSecs : Nat) : Bool :=
  (db.runtimeOf t).any fun r => r.healthy now staleSecs

/-- The parent failed because its runtime was offline. -/
def Db.reconnectRetry (db : Db) (t : Task) : Bool :=
  db.tasks.any fun parent => equal t.parentTaskId (some parent.id) &&
    parent.failureReason = some "runtime_offline"

/-- The condition of the index `idx_one_pending_task_per_issue_agent_v2`. -/
def Task.pending (t : Task) : Bool :=
  t.status = .queued || t.status = .dispatched || (t.status = .deferred && t.channelIssueMediaPending)

def Task.sameSlot (t t' : Task) : Bool :=
  t.pending && t'.pending && equal t.issueId t'.issueId && t.agentId = t'.agentId

/-- What the unique index allows. -/
def slotsDistinct (tasks : List Task) : Bool :=
  tasks.all fun t => tasks.all fun t' => t.id = t'.id || !t.sameSlot t'

/-- `priority DESC, created_at ASC, id ASC` -/
def Task.comesFirst (t t' : Task) : Bool :=
  t'.priority < t.priority || (t.priority = t'.priority &&
    (t.createdAt < t'.createdAt || (t.createdAt = t'.createdAt && t.id ≤ t'.id)))

/-- `ORDER BY key, created_at LIMIT n FOR UPDATE SKIP LOCKED` over the rows that are eligible. -/
def Db.victims (db : Db) (eligible : Task → Bool) (locked : List Nat) (key : Task → Nat) (n : Nat) :
    List Task :=
  ((db.tasks.filter fun t => eligible t && !locked.contains t.id).insertionSort
    fun t t' => key t < key t' ∨ key t = key t' ∧ t.createdAt ≤ t'.createdAt).take n

/-! ## New tasks -/

/-- A row with the column defaults. -/
def Task.new (id agentId : Nat) (runtimeId : Option Nat) (priority : Int) (now : Nat) : Task where
  id := id
  agentId := agentId
  runtimeId := runtimeId
  issueId := none
  chatSessionId := none
  autopilotRunId := none
  status := .queued
  priority := priority
  createdAt := now
  dispatchedAt := none
  startedAt := none
  completedAt := none
  prepareLeaseExpiresAt := none
  fireAt := none
  triggerCommentId := none
  coalescedCommentIds := []
  parentTaskId := none
  retryOfTaskId := none
  escalationForTaskId := none
  failureReason := none
  channelIssueMediaPending := false

inductive Enqueue
  | createAgentTask (id agentId : Nat) (runtimeId : Option Nat) (issueId : Nat) (priority : Int)
      (triggerCommentId : Option Nat) (coalescedCommentIds : List Nat)
  | createDeferredChannelIssueTask (id agentId : Nat) (runtimeId : Option Nat) (issueId : Nat)
      (priority : Int) (triggerCommentId : Option Nat) (coalescedCommentIds : List Nat) (fireAt : Nat)
  | createQuickCreateTask (id agentId : Nat) (runtimeId : Option Nat) (priority : Int)
  | createDeferredAgentTask (id agentId : Nat) (runtimeId issueId : Option Nat) (priority : Int)
      (triggerCommentId : Option Nat) (escalationForTaskId fireAt : Nat)
  | createRetryTask (newTaskId parentId : Nat) (fireAt : Option Nat)
  | createManualQuickCreateRetryTask (newTaskId sourceTaskId : Nat)
  /-- with `DeferChatTaskForSealedPendingMedia` in its transaction, for the
  latest unexpired media marker of the messages it has sealed -/
  | createChatTask (id agentId : Nat) (runtimeId : Option Nat) (priority : Int) (chatSessionId : Nat)
      (fireAt sealedUntil : Option Nat)
  | createAutopilotTask (id agentId : Nat) (runtimeId : Option Nat) (priority : Int)
      (autopilotRunId : Nat)

/-- `DeferChatTaskForSealedPendingMedia` -/
def deferChatTaskForSealedPendingMedia (sealedUntil : Option Nat) (t : Task) : Task :=
  match sealedUntil with
  | none => t
  | some maxUntil =>
    if t.fireAt.all fun fireAt => fireAt < maxUntil then
      { t with status := .deferred, fireAt := some maxUntil }
    else t

/-- The row that the statement inserts. -/
def Enqueue.row (db : Db) (now : Nat) : Enqueue → Option Task
  | .createAgentTask id agentId runtimeId issueId priority triggerCommentId coalescedCommentIds =>
    some { Task.new id agentId runtimeId priority now with
      issueId := some issueId
      triggerCommentId := triggerCommentId
      coalescedCommentIds := coalescedCommentIds }
  | .createDeferredChannelIssueTask id agentId runtimeId issueId priority triggerCommentId
      coalescedCommentIds fireAt =>
      some { Task.new id agentId runtimeId priority now with
        issueId := some issueId
        status := .deferred
        triggerCommentId := triggerCommentId
        coalescedCommentIds := coalescedCommentIds
        channelIssueMediaPending := true
        fireAt := some fireAt }
  | .createQuickCreateTask id agentId runtimeId priority =>
    some (Task.new id agentId runtimeId priority now)
  | .createDeferredAgentTask id agentId runtimeId issueId priority triggerCommentId escalationForTaskId
      fireAt =>
      some { Task.new id agentId runtimeId priority now with
        issueId := issueId
        status := .deferred
        triggerCommentId := triggerCommentId
        escalationForTaskId := some escalationForTaskId
        fireAt := some fireAt }
  | .createRetryTask newTaskId parentId fireAt =>
    (db.tasks.find? fun p => p.id = parentId).map fun p =>
      { Task.new newTaskId p.agentId p.runtimeId
          (if p.chatSessionId.isSome then max p.priority 3 else p.priority) now with
        issueId := p.issueId
        chatSessionId := p.chatSessionId
        autopilotRunId := p.autopilotRunId
        status := if fireAt.isSome then .deferred else .queued
        triggerCommentId := p.triggerCommentId
        coalescedCommentIds := p.coalescedCommentIds
        parentTaskId := some p.id
        retryOfTaskId := some p.id
        fireAt := fireAt
        channelIssueMediaPending := p.channelIssueMediaPending }
  | .createManualQuickCreateRetryTask newTaskId sourceTaskId =>
    (db.tasks.find? fun p => p.id = sourceTaskId && p.status = .failed && p.issueId.isNone &&
      p.chatSessionId.isNone && p.autopilotRunId.isNone).map fun p =>
      { Task.new newTaskId p.agentId p.runtimeId p.priority now with
        channelIssueMediaPending := p.channelIssueMediaPending }
  | .createChatTask id agentId runtimeId priority chatSessionId fireAt sealedUntil =>
    some (deferChatTaskForSealedPendingMedia sealedUntil
      { Task.new id agentId runtimeId priority now with
        chatSessionId := some chatSessionId
        status := if fireAt.isNone then .queued else .deferred
        fireAt := fireAt })
  | .createAutopilotTask id agentId runtimeId priority autopilotRunId =>
    some { Task.new id agentId runtimeId priority now with autopilotRunId := some autopilotRunId }

/-- `lock_task_owner_rows` has found the agent and, as `fence` says, the issue,
the runtime and their workspace; the key and the index have room, and a task
that is not over has a runtime. -/
def Db.insert (db : Db) (fence : Bool) (t : Task) : Db :=
  if fence && (db.agents t.agentId).isSome && db.tasks.all (fun t' => t'.id ≠ t.id) &&
      (t.runtimeId.isSome || t.completedAt.isSome) && slotsDistinct (db.tasks ++ [t]) then
    { db with tasks := db.tasks ++ [t] }
  else db

def Db.enqueue (db : Db) (now : Nat) (fence : Bool) (e : Enqueue) : Db :=
  match e.row db now with
  | none => db
  | some t => db.insert fence t

/-- `DeleteUnstartedQuickCreateRetryTask` -/
def unstartedQuickCreate (taskId : Nat) (t : Task) : Bool :=
  t.id = taskId && (t.status = .queued || t.status = .deferred) && t.issueId.isNone &&
    t.chatSessionId.isNone && t.autopilotRunId.isNone

def Db.deleteUnstartedQuickCreateRetryTask (db : Db) (taskId : Nat) : Db :=
  { db with tasks := db.tasks.filter fun t => !unstartedQuickCreate taskId t }

/-! ## Changes -/

/-- `UPDATE agent_task_queue SET … WHERE …` -/
structure Change where
  selects : Db → Task → Bool
  set : Task → Task

/-- The cancellations, of rows in one of these states. -/
def cancel (now : Nat) (states : List Status) (selects : Db → Task → Bool) : Change where
  selects db t := states.contains t.status && selects db t
  set t := { t with status := .cancelled, completedAt := some now, prepareLeaseExpiresAt := none }

/-- The failures, of rows in one of these states. -/
def fail (now : Nat) (reason : String) (states : List Status) (selects : Db → Task → Bool) : Change where
  selects db t := states.contains t.status && selects db t
  set t := { t with
    status := .failed
    completedAt := some now
    failureReason := some reason
    prepareLeaseExpiresAt := none }

def unfinishedStates : List Status :=
  [.queued, .dispatched, .running, .waitingLocalDirectory, .deferred]

def activeStates : List Status := [.dispatched, .running, .waitingLocalDirectory]

inductive Statement
  | promoteDeferredChannelIssueTask (id : Nat)
  | promoteDueDeferredTasksForRuntimes (runtimeIds : List Nat) (runtimeStaleSecs : Nat)
  /-- `mediaPending` are the tasks with a message whose media marker has not expired -/
  | promoteChannelChatTasksIfMediaReady (chatSessionId : Nat) (mediaPending : List Nat)
  | requeueAgentTaskAfterClaimFailure (taskId runtimeId dispatchedAt : Nat)
  | reclaimStaleDispatchedTasksForRuntimes (runtimeIds : List Nat)
      (claimRecoverySecs prepareLeaseSecs runtimeStaleSecs maxTasks : Nat) (locked : List Nat)
  | extendAgentTaskPrepareLease (id runtimeId leaseSecs : Nat)
  | startAgentTask (id : Nat)
  | markAgentTaskWaitingLocalDirectory (id prepareLeaseSecs : Nat)
  | completeAgentTask (id : Nat)
  | failAgentTask (id : Nat) (failureReason : Option String)
  | recoverOrphanedTasksForRuntime (runtimeId : Nat)
  | failStaleTasks (dispatchTimeoutSecs runtimeStaleSecs runtimeReconnectGraceSecs
      runningTimeoutSecs : Nat)
  | expireStaleQueuedTasks (ttlSecs maxPerTick : Nat) (locked : List Nat)
  | failExpiredRuntimeReconnectRetries (reconnectGraceSecs runtimeStaleSecs maxPerTick : Nat)
      (locked : List Nat)
  | failTasksForOfflineRuntimes (reconnectGraceSecs maxPerTick : Nat) (locked : List Nat)
  | cancelAgentTask (id : Nat)
  | cancelAgentTaskByUser (id : Nat)
  | cancelAgentTaskWithReason (id : Nat) (failureReason : String)
  | cancelAgentTasksByIssue (issueId : Nat)
  | cancelPendingTasksByIssueAndAgent (issueId agentId : Nat)
  | cancelAgentTasksByAgent (agentId : Nat)
  | cancelAgentTasksByTriggerComment (commentId : Nat)
  | cancelAgentTasksByChatSession (chatSessionId : Nat)
  | cancelQueuedAgentTask (id chatSessionId : Nat)
  | cancelQueuedAgentTasksForSession (chatSessionId : Nat)
  | cancelSupersededDeferredRetriesForRuntimes (runtimeIds : List Nat)
  | cancelDeferredEscalationsForTask (taskId : Nat)
  | cancelDeferredEscalationsForIssueAgent (issueId agentId : Nat)
  | cancelAgentTasksByRuntimeOrAgent (runtimeIds agentIds : List Nat)

/-- `runtime_id = ANY(…)` -/
def Task.onAny (t : Task) (runtimeIds : List Nat) : Bool := t.runtimeId.any runtimeIds.contains

section

variable (db : Db)

/-- The rows `due` of the promotion. -/
def Db.dueDeferred (now : Nat) (runtimeIds : List Nat) (runtimeStaleSecs : Nat) (t : Task) :
    Bool :=
  t.onAny runtimeIds && t.status = .deferred && t.fireAt.any (fun fireAt => fireAt ≤ now) &&
    db.healthyRuntime t now runtimeStaleSecs &&
    !db.tasks.any fun occupant => equal occupant.issueId t.issueId && occupant.agentId = t.agentId &&
      occupant.id ≠ t.id && occupant.pending

/-- A claim whose answer was lost, and which may be given out again. -/
def Db.reclaimable (now : Nat) (runtimeIds : List Nat)
    (claimRecoverySecs runtimeStaleSecs : Nat) (t : Task) : Bool :=
  t.onAny runtimeIds && t.status = .dispatched && t.startedAt.isNone &&
    before t.dispatchedAt (now - claimRecoverySecs) &&
    (t.prepareLeaseExpiresAt.isNone || before t.prepareLeaseExpiresAt now) &&
    db.authorized t && db.healthyRuntime t now runtimeStaleSecs

/-- `ORDER BY priority DESC, dispatched_at ASC LIMIT … FOR UPDATE SKIP LOCKED` -/
def Db.reclaimed (eligible : Task → Bool) (locked : List Nat) (n : Nat) : List Task :=
  ((db.tasks.filter fun t => eligible t && !locked.contains t.id).insertionSort fun t t' =>
    t'.priority < t.priority ∨
      (t.priority = t'.priority ∧ t.dispatchedAt.getD 0 ≤ t'.dispatchedAt.getD 0)).take n

def Db.staleDispatched (now dispatchTimeoutSecs runtimeStaleSecs
    runtimeReconnectGraceSecs : Nat) (t : Task) : Bool :=
  t.status = .dispatched && before t.dispatchedAt (now - dispatchTimeoutSecs) &&
    (t.prepareLeaseExpiresAt.isNone || before t.prepareLeaseExpiresAt now) &&
    match db.runtimeOf t with
    | none => true
    | some r => r.healthy now runtimeStaleSecs || r.seenAt < now - runtimeReconnectGraceSecs

def Db.staleRunning (now runtimeReconnectGraceSecs runningTimeoutSecs : Nat) (t : Task) : Bool :=
  t.status = .running && before t.startedAt (now - runningTimeoutSecs) &&
    !(db.runtimeOf t).any fun r => now - runtimeReconnectGraceSecs ≤ r.seenAt

def Db.expired (now ttlSecs : Nat) (t : Task) : Bool :=
  t.status = .queued && t.createdAt < now - ttlSecs && !db.reconnectRetry t

def Db.reconnectExpired (now reconnectGraceSecs runtimeStaleSecs : Nat) (t : Task) : Bool :=
  t.status = .deferred && before t.fireAt (now - reconnectGraceSecs) && db.reconnectRetry t &&
    !db.healthyRuntime t now runtimeStaleSecs

def Db.offline (now reconnectGraceSecs : Nat) (t : Task) : Bool :=
  t.status.active &&
    (db.runtimeOf t).any fun r => !r.online && r.seenAt < now - reconnectGraceSecs

end

/-- The rank of a task among those of its chat session. -/
def Task.rank (t : Task) : Nat := if t.status.active then 0 else if t.status = .deferred then 1 else 2

/-- The first visible task of a chat session.  No statement writes the column
`regenerate_quick_actions_for`, so it is NULL. -/
def Db.headOf (db : Db) (chatSessionId : Nat) : Option Task :=
  let rows := db.tasks.filter fun t => equal t.chatSessionId (some chatSessionId) && t.status.unfinished
  rows.find? fun t => rows.all fun t' =>
    t.rank < t'.rank || (t.rank = t'.rank && t.comesFirst t')

/-- An automatic retry that an active task of its issue makes unnecessary. -/
def Db.superseded (db : Db) (runtimeIds : List Nat) (t : Task) : Bool :=
  t.onAny runtimeIds && t.issueId.isSome && t.retryOfTaskId.isSome && t.escalationForTaskId.isNone &&
    !t.channelIssueMediaPending &&
    db.tasks.any fun successor => equal successor.issueId t.issueId && successor.agentId = t.agentId &&
      successor.id ≠ t.id && (successor.status.active || successor.status = .queued)

def Statement.change (now : Nat) : Statement → Change
  | .promoteDeferredChannelIssueTask id =>
    ⟨fun _ t => t.id = id && t.issueId.isSome && t.status = .deferred,
      fun t => { t with status := .queued, fireAt := none }⟩
  | .promoteDueDeferredTasksForRuntimes runtimeIds runtimeStaleSecs =>
    ⟨fun db t => db.dueDeferred now runtimeIds runtimeStaleSecs t && (t.issueId.isNone ||
        (db.tasks.filter (db.dueDeferred now runtimeIds runtimeStaleSecs)).all fun t' =>
          t'.issueId ≠ t.issueId || t'.agentId ≠ t.agentId || t.comesFirst t'),
      fun t => { t with status := .queued }⟩
  | .promoteChannelChatTasksIfMediaReady chatSessionId mediaPending =>
    ⟨fun _ t => equal t.chatSessionId (some chatSessionId) && t.status = .deferred &&
        t.issueId.isNone && t.parentTaskId.isNone && t.escalationForTaskId.isNone &&
        !mediaPending.contains t.id,
      fun t => { t with status := .queued, fireAt := none }⟩
  | .requeueAgentTaskAfterClaimFailure taskId runtimeId dispatchedAt =>
    ⟨fun _ t => t.id = taskId && equal t.runtimeId (some runtimeId) && t.status = .dispatched &&
        t.startedAt.isNone && equal t.dispatchedAt (some dispatchedAt),
      fun t => { t with status := .queued, dispatchedAt := none, prepareLeaseExpiresAt := none }⟩
  | .reclaimStaleDispatchedTasksForRuntimes runtimeIds claimRecoverySecs prepareLeaseSecs
      runtimeStaleSecs maxTasks locked =>
      ⟨fun db t => (db.reclaimed (db.reclaimable now runtimeIds claimRecoverySecs runtimeStaleSecs)
          locked maxTasks).contains t,
        fun t => { t with
          dispatchedAt := some now
          prepareLeaseExpiresAt := some (now + prepareLeaseSecs) }⟩
  | .extendAgentTaskPrepareLease id runtimeId leaseSecs =>
    ⟨fun _ t => t.id = id && equal t.runtimeId (some runtimeId) &&
        (t.status = .dispatched || t.status = .waitingLocalDirectory) && t.startedAt.isNone,
      fun t => { t with prepareLeaseExpiresAt := some (now + leaseSecs) }⟩
  | .startAgentTask id =>
    ⟨fun _ t => t.id = id && (t.status = .dispatched || t.status = .waitingLocalDirectory),
      fun t => { t with status := .running, startedAt := some now, prepareLeaseExpiresAt := none }⟩
  | .markAgentTaskWaitingLocalDirectory id prepareLeaseSecs =>
    ⟨fun _ t => t.id = id && t.status = .dispatched,
      fun t => { t with
        status := .waitingLocalDirectory
        prepareLeaseExpiresAt := some (now + prepareLeaseSecs) }⟩
  | .completeAgentTask id =>
    ⟨fun _ t => t.id = id && t.status = .running,
      fun t => { t with
        status := .completed
        completedAt := some now
        prepareLeaseExpiresAt := none }⟩
  | .failAgentTask id failureReason =>
    fail now (failureReason.getD "agent_error") activeStates fun _ t => t.id = id
  | .recoverOrphanedTasksForRuntime runtimeId =>
    fail now "runtime_recovery" activeStates fun _ t => equal t.runtimeId (some runtimeId)
  | .failStaleTasks dispatchTimeoutSecs runtimeStaleSecs runtimeReconnectGraceSecs runningTimeoutSecs =>
    fail now "timeout" [.dispatched, .running] fun db t =>
      db.staleDispatched now dispatchTimeoutSecs runtimeStaleSecs runtimeReconnectGraceSecs t ||
        db.staleRunning now runtimeReconnectGraceSecs runningTimeoutSecs t
  | .expireStaleQueuedTasks ttlSecs maxPerTick locked =>
    fail now "queued_expired" [.queued] fun db t =>
      (db.victims (db.expired now ttlSecs) locked Task.createdAt maxPerTick).contains t
  | .failExpiredRuntimeReconnectRetries reconnectGraceSecs runtimeStaleSecs maxPerTick locked =>
    fail now "runtime_reconnect_timeout" [.deferred] fun db t =>
      (db.victims (db.reconnectExpired now reconnectGraceSecs runtimeStaleSecs) locked
        (fun t => t.fireAt.getD 0) maxPerTick).contains t
  | .failTasksForOfflineRuntimes reconnectGraceSecs maxPerTick locked =>
    ⟨fun db t => (db.victims (db.offline now reconnectGraceSecs) locked
        (fun t => ((db.runtimeOf t).map Runtime.seenAt).getD 0) maxPerTick).contains t &&
        t.status.active,
      fun t => { t with
        status := .failed
        completedAt := some now
        failureReason := some "runtime_offline" }⟩
  | .cancelAgentTask id => cancel now unfinishedStates fun _ t => t.id = id
  | .cancelAgentTaskByUser id => cancel now unfinishedStates fun _ t => t.id = id
  | .cancelAgentTaskWithReason id failureReason =>
    ⟨fun _ t => t.id = id && unfinishedStates.contains t.status,
      fun t => { t with
        status := .cancelled
        completedAt := some now
        failureReason := some failureReason
        prepareLeaseExpiresAt := none }⟩
  | .cancelAgentTasksByIssue issueId =>
    cancel now unfinishedStates fun _ t => equal t.issueId (some issueId)
  | .cancelPendingTasksByIssueAndAgent issueId agentId =>
    cancel now [.queued, .dispatched, .deferred] fun _ t =>
      equal t.issueId (some issueId) && t.agentId = agentId
  | .cancelAgentTasksByAgent agentId => cancel now unfinishedStates fun _ t => t.agentId = agentId
  | .cancelAgentTasksByTriggerComment commentId =>
    cancel now unfinishedStates fun _ t =>
      equal t.triggerCommentId (some commentId) || t.coalescedCommentIds.contains commentId
  | .cancelAgentTasksByChatSession chatSessionId =>
    cancel now unfinishedStates fun _ t => equal t.chatSessionId (some chatSessionId)
  | .cancelQueuedAgentTask id chatSessionId =>
    cancel now [.queued] fun _ t => t.id = id && equal t.chatSessionId (some chatSessionId)
  | .cancelQueuedAgentTasksForSession chatSessionId =>
    cancel now [.queued] fun db t => equal t.chatSessionId (some chatSessionId) &&
      (db.headOf chatSessionId).all fun head => t.id ≠ head.id
  | .cancelSupersededDeferredRetriesForRuntimes runtimeIds =>
    cancel now [.deferred] fun db t => db.superseded runtimeIds t
  | .cancelDeferredEscalationsForTask taskId =>
    cancel now [.deferred, .queued, .dispatched, .waitingLocalDirectory] fun _ t =>
      equal t.escalationForTaskId (some taskId)
  | .cancelDeferredEscalationsForIssueAgent issueId agentId =>
    cancel now [.deferred, .queued, .dispatched, .waitingLocalDirectory] fun db t =>
      db.tasks.any fun primary => equal t.escalationForTaskId (some primary.id) &&
        equal primary.issueId (some issueId) && primary.agentId = agentId
  | .cancelAgentTasksByRuntimeOrAgent runtimeIds agentIds =>
    ⟨fun _ t => (t.onAny runtimeIds || agentIds.contains t.agentId) &&
        unfinishedStates.contains t.status,
      fun t => { t with status := .cancelled, completedAt := some now }⟩

/-- The rows that a statement changes. -/
def Db.changed (db : Db) (change : Change) : List Task := db.tasks.filter (change.selects db)

/-- A statement fails as a whole where the unique index is violated. -/
def Db.run (db : Db) (change : Change) : Db × List Task :=
  let tasks := Rows.update db.tasks (change.selects db) change.set
  if slotsDistinct tasks then ({ db with tasks := tasks }, (db.changed change).map change.set)
  else (db, [])

/-! ## Claims -/

/-- `CountRunningTasks` -/
def Db.countRunningTasks (db : Db) (agentId : Nat) : Nat :=
  db.tasks.countP fun t => t.agentId = agentId && t.status.active

/-- A quick-create has neither an issue nor a chat session nor an autopilot run. -/
def Task.quickCreate (t : Task) : Bool :=
  t.issueId.isNone && t.chatSessionId.isNone && t.autopilotRunId.isNone

/-- Two tasks of an agent that must not be active together. -/
def Task.conflicts (t t' : Task) : Bool :=
  equal t.issueId t'.issueId || equal t.chatSessionId t'.chatSessionId ||
    (t.quickCreate && t'.quickCreate)

/-- The rows that `ClaimAgentTask` may take. -/
def Db.claimable (db : Db) (agentId runtimeId now runtimeStaleSecs : Nat) (t : Task) : Bool :=
  t.agentId = agentId && equal t.runtimeId (some runtimeId) && t.status = .queued &&
    db.authorized t && db.healthyRuntime t now runtimeStaleSecs &&
    !db.tasks.any fun active => active.agentId = t.agentId && active.status.active && t.conflicts active

/-- The row that `ClaimAgentTask` takes. -/
def Db.claimAgentTask (db : Db) (agentId runtimeId now runtimeStaleSecs : Nat) (locked : List Nat) :
    Option Task :=
  let rows := db.tasks.filter fun t =>
    db.claimable agentId runtimeId now runtimeStaleSecs t && !locked.contains t.id
  rows.find? fun t => rows.all t.comesFirst

/-- What it makes of the row. -/
def Task.dispatch (t : Task) (now prepareLeaseSecs : Nat) : Task :=
  { t with
    status := .dispatched
    dispatchedAt := some now
    prepareLeaseExpiresAt := some (now + prepareLeaseSecs) }

inductive Phase
  /-- the agent's row is locked, `CountRunningTasks` is next -/
  | locked
  /-- there is room, `ClaimAgentTask` is next -/
  | counted
  /-- the row is locked and will be dispatched at the commit -/
  | claimed (task : Task) (prepareLeaseSecs : Nat)

/-- An open `claimTask`. -/
structure Claim where
  agentId : Nat
  /-- the runtime that asked, if one did -/
  runtimeId : Option Nat
  agent : Agent
  /-- it, or else the runtime that the agent is bound to -/
  claimRuntimeId : Nat
  now : Nat
  phase : Phase

/-- The runtime that a claim is for; none, where the agent has none or is bound
to another than the one that asked. -/
def claimRuntime (agent : Agent) (runtimeId : Option Nat) : Option Nat :=
  match runtimeId with
  | none => agent.runtimeId
  | some asked => if agent.runtimeId = some asked then some asked else none

/-! ## Steps -/

structure State where
  db : Db
  claims : Nat → Option Claim

def State.start : State := ⟨Db.empty, fun _ => none⟩

inductive Event
  | enqueue (now : Nat) (fence : Bool) (e : Enqueue)
  | run (now : Nat) (st : Statement)
  | deleteUnstartedQuickCreateRetryTask (taskId : Nat)
  /-- `GetAgentForClaimUpdate` of a claim transaction -/
  | claim (n agentId : Nat) (runtimeId : Option Nat) (now : Nat)
  | countRunningTasks (n : Nat)
  | claimAgentTask (n prepareLeaseSecs runtimeStaleSecs : Nat) (locked : List Nat)
  | commitClaim (n : Nat)
  | rollbackClaim (n : Nat)
  | saveAgent (agentId : Nat) (agent : Agent)
  | saveRuntime (runtimeId : Nat) (runtime : Runtime)

def State.setClaim (s : State) (n : Nat) (claim : Option Claim) : State :=
  { s with claims := Function.update s.claims n claim }

section

variable (s : State) (n : Nat) (c : Claim)

def State.count : State :=
  match c.phase with
  | .locked =>
    if c.agent.maxConcurrentTasks ≤ s.db.countRunningTasks c.agentId then s.setClaim n none
    else s.setClaim n (some { c with phase := .counted })
  | _ => s

def State.take (prepareLeaseSecs runtimeStaleSecs : Nat)
    (locked : List Nat) : State :=
  match c.phase with
  | .counted =>
    match s.db.claimAgentTask c.agentId c.claimRuntimeId c.now runtimeStaleSecs locked with
    | none => s.setClaim n none
    | some t => s.setClaim n (some { c with phase := .claimed t prepareLeaseSecs })
  | _ => s

/-- The dispatched row is what `claimTask` returns. -/
def State.commit : List Task × State :=
  match c.phase with
  | .claimed t prepareLeaseSecs =>
    ([t.dispatch c.now prepareLeaseSecs], ({ s with db := { s.db with
      tasks := Rows.update s.db.tasks (fun row => row.id = t.id) fun row =>
        row.dispatch c.now prepareLeaseSecs } }).setClaim n none)
  | _ => ([], s)

end

/-- The answers are the rows that a statement or a claim returns. -/
def State.step (s : State) : Event → List Task × State
  | .enqueue now fence e => ([], { s with db := s.db.enqueue now fence e })
  | .run now st =>
    let (db, rows) := s.db.run (st.change now)
    (rows, { s with db := db })
  | .deleteUnstartedQuickCreateRetryTask taskId =>
    ([], { s with db := s.db.deleteUnstartedQuickCreateRetryTask taskId })
  | .claim n agentId runtimeId now =>
    match s.db.agents agentId with
    | none => ([], s)
    | some agent =>
      match claimRuntime agent runtimeId with
      | none => ([], s)
      | some claimRuntimeId => ([], s.setClaim n (some ⟨agentId, runtimeId, agent, claimRuntimeId, now, .locked⟩))
  | .countRunningTasks n =>
    match s.claims n with
    | none => ([], s)
    | some c => ([], s.count n c)
  | .claimAgentTask n prepareLeaseSecs runtimeStaleSecs locked =>
    match s.claims n with
    | none => ([], s)
    | some c => ([], s.take n c prepareLeaseSecs runtimeStaleSecs locked)
  | .commitClaim n =>
    match s.claims n with
    | none => ([], s)
    | some c => s.commit n c
  | .rollbackClaim n => ([], s.setClaim n none)
  | .saveAgent agentId agent =>
    ([], { s with db := { s.db with agents := Function.update s.db.agents agentId (some agent) } })
  | .saveRuntime runtimeId runtime =>
    ([], { s with db := { s.db with
      runtimes := Function.update s.db.runtimes runtimeId (some runtime) } })

end ClawMessenger.Ports.TaskQueue
