import ClawMessenger.Ports.RetryChains
import ClawMessenger.Verified.SortOrder

/-!
# Turns of a direct chat

The tasks and messages of one live chat session, and the calls of
`server/internal/service/task.go` that begin, run and end a turn:
`SendDirectChatMessage`, `ClaimTask`, `CompleteTask`, `FailTask`,
`CancelTaskWithResult`, `CancelQueuedChatTasks`, `CancelTasksForAgent`,
`FinalizeDeferredCancelledChat` and `HandleFailedTasks` behind the sweepers, with the
statements of `chat.sql` and `agent.sql` that they run.

A transaction is one step at its commit: all of them but the claim, the sweeps and
the bulk cancellation hold the lock of the session, and these are one statement
with what it returns.  A step carries the time at which its transaction began, which
is what its rows are stamped with.  Two calls take several transactions: a
cancellation flips the status in one and settles the transcript in the next, and a
sweep fails its rows in one statement and handles them one after another.

All input is direct, so `TaskHasChannelIngestedMessages` is false throughout.
-/

namespace ClawMessenger.Ports.ChatTurns

open Verified
open TaskQueue (Status)
open RetryChains (retryableReasons retryAttemptCeiling retryDelayForAttempt)

/-! ## Rows -/

/-- A row of `agent_task_queue` with the session. -/
structure Task where
  id : Nat
  status : Status
  priority : Nat
  createdAt : Nat
  attempt : Int
  maxAttempts : Int
  parentTaskId : Option Nat
  chatInputTaskId : Nat
  failureReason : Option String
  /-- `started_at IS NOT NULL` -/
  started : Bool
  /-- `chat_finalize_deferred_at IS NOT NULL` -/
  finalizeDeferred : Bool
  /-- its rows in `task_message` -/
  taskMessages : Nat
  deriving DecidableEq, Repr

inductive Role
  | user
  | assistant
  deriving DecidableEq, Repr

/-- A row of `chat_message`. -/
structure Message where
  id : Nat
  createdAt : Nat
  role : Role
  taskId : Nat
  deriving DecidableEq, Repr

/-- A call between two of its transactions. -/
inductive Work
  /-- `CancelTaskWithResult`, before `finalizeCancelledChatMessage` -/
  | finalize (taskId : Nat) (clientSupportsDraftRestore : Bool)
  /-- `HandleFailedTasks`, with the rows that it has not handled -/
  | handle (taskIds : List Nat)

structure Call where
  id : Nat
  work : Work

structure State where
  tasks : List Task
  messages : List Message
  /-- `chat_draft_restore`, by the input batch that was deleted -/
  drafts : List Nat
  /-- Not a table: the batches that the response of a cancellation handed back. -/
  handedBack : List Nat
  /-- Not a table: the batches that were removed from the queue at the user's request. -/
  removed : List Nat
  calls : List Call
  /-- Not a table: the ids of messages so far, which are not given again. -/
  issued : List Nat

def start : State := ⟨[], [], [], [], [], [], []⟩

/-! ## The visible head -/

def Status.rank (status : Status) : Nat := if status.active then 0 else if status = .deferred then 1 else 2

/-- `priority DESC, created_at ASC, id ASC` -/
def Task.queueKey (t : Task) : Lex (OrderDual Nat × Lex (Nat × Nat)) :=
  toLex (OrderDual.toDual t.priority, toLex (t.createdAt, t.id))

def Task.headKey (t : Task) : Lex (Nat × Lex (OrderDual Nat × Lex (Nat × Nat))) :=
  toLex (Status.rank t.status, t.queueKey)

/-- The selector that is written above `ListChatMessages`. -/
def visibleHead (tasks : List Task) : Option Task :=
  (tasks.filter fun t => t.status.unfinished).argmin Task.headKey

/-- The user row of a queued follow-up. -/
def hidden (tasks : List Task) (m : Message) : Bool :=
  m.role == .user &&
    tasks.any fun t => t.status == .queued && t.id == m.taskId && (visibleHead tasks).any fun head => t.id != head.id

/-- `created_at ASC, id ASC` -/
def Message.key (m : Message) : Lex (Nat × Nat) := toLex (m.createdAt, m.id)

/-- `ListChatMessages` -/
def listChatMessages (σ : State) : List Message :=
  ((SortOrder.linear _).on Message.key).sort (σ.messages.filter fun m => !hidden σ.tasks m)

/-! ## Times of user rows -/

/-- The latest visible row, the input itself apart. -/
def latestVisible (tasks : List Task) (messages : List Message) (inputId : Nat) : Option Message :=
  (messages.filter fun m => m.id != inputId && !hidden tasks m).argmax Message.key

def Message.reanchor (m prior : Message) (dispatchedAt : Nat) : Message :=
  if m.createdAt ≤ prior.createdAt then { m with createdAt := max dispatchedAt (prior.createdAt + 1) } else m

/-- `ReanchorClaimedDirectChatInput`; the tasks have the claim. -/
def reanchorClaimed (tasks : List Task) (messages : List Message) (taskId dispatchedAt : Nat) : List Message :=
  messages.map fun m =>
    if m.role == .user && m.taskId == taskId then
      match latestVisible tasks messages m.id with
      | none => m
      | some prior => m.reanchor prior dispatchedAt
    else m

/-- The queued direct turn that is the visible head. -/
def queuedHead (tasks : List Task) : Option Task :=
  (visibleHead tasks).filter fun t => t.status == .queued && t.chatInputTaskId == t.id

/-- `ReanchorNextQueuedDirectChatInput` -/
def reanchorNext (tasks : List Task) (messages : List Message) (assistantCreatedAt : Nat) : List Message :=
  messages.map fun m =>
    if m.role == .user && m.createdAt ≤ assistantCreatedAt && (queuedHead tasks).any fun head => head.id == m.taskId then
      { m with createdAt := assistantCreatedAt + 1 }
    else m

/-! ## Statements -/

def findTask (tasks : List Task) (id : Nat) : Option Task := tasks.find? fun t => t.id == id

/-- `UPDATE … WHERE id = $1 AND guard RETURNING *`, before the update -/
def guarded (tasks : List Task) (id : Nat) (guard : Task → Bool) : Option Task :=
  tasks.find? fun t => t.id == id && guard t

def updateTask (tasks : List Task) (id : Nat) (f : Task → Task) : List Task :=
  Rows.update tasks (fun t => t.id == id) f

def Task.setStatus (status : Status) (t : Task) : Task := { t with status := status }

/-- `CreateChatMessage` -/
def addMessage (σ : State) (m : Message) : State :=
  { σ with messages := σ.messages ++ [m], issued := σ.issued ++ [m.id] }

/-- `createAssistantChatMessage` -/
def createAssistant (σ : State) (now messageId taskId : Nat) : State :=
  let written := addMessage σ ⟨messageId, now, .assistant, taskId⟩
  { written with messages := reanchorNext written.tasks written.messages now }

def isInput (inputOwnerId : Nat) (m : Message) : Bool := m.role == .user && m.taskId == inputOwnerId

/-- `DeleteUserChatMessageByTask` with what the caller makes of the row; nothing where
it deletes none. -/
def deleteInput (σ : State) (inputOwnerId : Nat) (handBack : State → State) : State :=
  if σ.messages.any (isInput inputOwnerId) then
    handBack { σ with messages := σ.messages.filter fun m => !isInput inputOwnerId m }
  else σ

section

variable (inputOwnerId : Nat) (σ : State)

def toDrafts : State := { σ with drafts := σ.drafts ++ [inputOwnerId] }

def toResponse : State := { σ with handedBack := σ.handedBack ++ [inputOwnerId] }

def toRemoved : State := { σ with removed := σ.removed ++ [inputOwnerId] }

end

inductive QueueAction
  | edit
  | remove

/-- `settleQueuedChatInput` -/
def settleQueued (σ : State) (t : Task) : QueueAction → State
  | .edit => deleteInput σ t.chatInputTaskId (toDrafts t.chatInputTaskId)
  | .remove => deleteInput σ t.chatInputTaskId (toRemoved t.chatInputTaskId)

/-! ## Retries -/

def retryEligible (reason : String) (t : Task) : Bool :=
  retryableReasons.contains reason && t.attempt < retryAttemptCeiling reason t.maxAttempts

/-- The child of `CreateRetryTask`. -/
def retryChild (t : Task) (reason : String) (now newTaskId : Nat) : Task where
  id := newTaskId
  status := if 0 < retryDelayForAttempt reason t.attempt then .deferred else .queued
  priority := max t.priority 3
  createdAt := now
  attempt := t.attempt + 1
  maxAttempts := retryAttemptCeiling reason t.maxAttempts
  parentTaskId := some t.id
  chatInputTaskId := t.chatInputTaskId
  failureReason := none
  started := false
  finalizeDeferred := false
  taskMessages := 0

def addTask (σ : State) (t : Task) : State := { σ with tasks := σ.tasks ++ [t] }

def Task.fail (reason : String) (t : Task) : Task := { t with status := .failed, failureReason := some reason }

/-! ## Sweeps -/

inductive Sweep
  | timeout
  | runtimeOffline
  | runtimeRecovery
  | queuedExpired
  | reconnectTimeout

def Sweep.reason : Sweep → String
  | .timeout => "timeout"
  | .runtimeOffline => "runtime_offline"
  | .runtimeRecovery => "runtime_recovery"
  | .queuedExpired => "queued_expired"
  | .reconnectTimeout => "runtime_reconnect_timeout"

/-- The row is a retry of one that failed since its runtime was offline. -/
def awaitsRuntime (tasks : List Task) (t : Task) : Bool :=
  tasks.any fun p => some p.id == t.parentTaskId && p.failureReason == some "runtime_offline"

/-- What the statement asks of a row, times and heartbeats apart. -/
def Sweep.takes (tasks : List Task) : Sweep → Task → Bool
  | .timeout, t => t.status == .dispatched || t.status == .running
  | .runtimeOffline, t => t.status.active
  | .runtimeRecovery, t => t.status.active
  | .queuedExpired, t => t.status == .queued && !awaitsRuntime tasks t
  | .reconnectTimeout, t => t.status == .deferred && awaitsRuntime tasks t

/-- The rows that the statement fails, of those that its times and its limit select. -/
def Sweep.victims (sweep : Sweep) (tasks : List Task) (selected : List Nat) : List Task :=
  tasks.filter fun t => selected.contains t.id && sweep.takes tasks t

/-! ## Calls -/

def openCall (σ : State) (callId : Nat) (work : Work) : State := { σ with calls := σ.calls ++ [⟨callId, work⟩] }

def closeCall (σ : State) (callId : Nat) : State := { σ with calls := σ.calls.filter fun c => c.id ≠ callId }

def findCall (σ : State) (callId : Nat) : Option Call := σ.calls.find? fun c => c.id == callId

/-- `CreateChatTask` with `SetChatTaskInputOwnerSelf` -/
def directTask (now taskId : Nat) : Task where
  id := taskId
  status := .queued
  priority := 2
  createdAt := now
  attempt := 1
  maxAttempts := 2
  parentTaskId := none
  chatInputTaskId := taskId
  failureReason := none
  started := false
  finalizeDeferred := false
  taskMessages := 0

def send (σ : State) (now taskId messageId : Nat) : State :=
  addMessage (addTask σ (directTask now taskId)) ⟨messageId, now, .user, taskId⟩

/-- `ClaimAgentTask`, whose `SKIP LOCKED` passes over rows that others hold. -/
def claimable (tasks : List Task) (locked : List Nat) : Option Task :=
  if tasks.any fun t => t.status.active then none
  else (tasks.filter fun t => t.status == .queued && !locked.contains t.id).argmin Task.queueKey

section

variable (σ : State)

def claim (now : Nat) (locked : List Nat) : State :=
  match claimable σ.tasks locked with
  | none => σ
  | some t =>
    let tasks := updateTask σ.tasks t.id (Task.setStatus .dispatched)
    if t.chatInputTaskId = t.id then
      { σ with tasks := tasks, messages := reanchorClaimed tasks σ.messages t.id now }
    else { σ with tasks := tasks }

/-- A statement on one row that ends no turn. -/
def moveTask (id : Nat) (guard : Task → Bool) (f : Task → Task) : State :=
  match guarded σ.tasks id guard with
  | none => σ
  | some t => { σ with tasks := updateTask σ.tasks t.id f }

def setTask (id : Nat) (f : Task → Task) : State := { σ with tasks := updateTask σ.tasks id f }

/-- Direct turns have an outcome for an empty output, too. -/
def complete (now taskId messageId : Nat) : State :=
  match guarded σ.tasks taskId fun t => t.status == .running with
  | none => σ
  | some t => createAssistant (setTask σ t.id (Task.setStatus .completed)) now messageId t.id

def failTask (now taskId newTaskId messageId : Nat) (reason : String) : State :=
  match guarded σ.tasks taskId fun t => t.status.active with
  | none => σ
  | some t =>
    let failed := setTask σ t.id (Task.fail reason)
    if retryEligible reason t then addTask failed (retryChild t reason now newTaskId)
    else createAssistant failed now messageId t.id

/-- The first transaction of `CancelTaskWithResult`. -/
def cancelTask (callId taskId : Nat) (clientSupportsDraftRestore : Bool) : State :=
  match guarded σ.tasks taskId fun t => t.status.unfinished with
  | none => σ
  | some t =>
    openCall (setTask σ t.id (Task.setStatus .cancelled)) callId (.finalize t.id clientSupportsDraftRestore)

/-- What `finalizeCancelledChatMessage` makes of the transcript. -/
def finalizeCancelled (now messageId : Nat) (t : Task) (clientSupportsDraftRestore : Bool) : State :=
  if t.taskMessages = 0 then
    if t.started && clientSupportsDraftRestore then setTask σ t.id fun t => { t with finalizeDeferred := true }
    else deleteInput σ t.chatInputTaskId (toResponse t.chatInputTaskId)
  else createAssistant σ now messageId t.id

end

/-- The second transaction of `CancelTaskWithResult`. -/
def finalize (σ : State) (now callId messageId : Nat) : State :=
  match findCall σ callId with
  | some ⟨_, .finalize taskId supports⟩ =>
    match findTask σ.tasks taskId with
    | none => σ
    | some t => finalizeCancelled (closeCall σ callId) now messageId t supports
  | _ => σ

/-- `CancelTaskWithResult` with `QueuedOnly` -/
def cancelQueued (σ : State) (taskId : Nat) (action : QueueAction) : State :=
  match guarded σ.tasks taskId fun t => t.status == .queued with
  | none => σ
  | some t => settleQueued (setTask σ t.id (Task.setStatus .cancelled)) t action

/-- `CancelQueuedAgentTasksForSession` -/
def followUps (tasks : List Task) : List Task :=
  tasks.filter fun t => t.status == .queued && (visibleHead tasks).all fun head => t.id != head.id

def cancelRows (tasks rows : List Task) : List Task :=
  Rows.update tasks (fun t => rows.any fun row => row.id == t.id) (Task.setStatus .cancelled)

/-- `CancelQueuedChatTasks` -/
def cancelFollowUps (σ : State) : State :=
  let rows := followUps σ.tasks
  rows.foldl (fun σ t => settleQueued σ t .remove) { σ with tasks := cancelRows σ.tasks rows }

/-- `CancelTasksForAgent` -/
def cancelAgent (σ : State) : State :=
  { σ with tasks := Rows.update σ.tasks (fun t => t.status.unfinished) (Task.setStatus .cancelled) }

def finalizeDeferred (σ : State) (now taskId messageId : Nat) : State :=
  match guarded σ.tasks taskId Task.finalizeDeferred with
  | none => σ
  | some t =>
    let taken := setTask σ t.id fun t => { t with finalizeDeferred := false }
    if t.taskMessages = 0 then deleteInput taken t.chatInputTaskId (toDrafts t.chatInputTaskId)
    else createAssistant taken now messageId t.id

/-- The statement of a sweep; a call follows where it failed a row. -/
def sweep (σ : State) (callId : Nat) (kind : Sweep) (selected : List Nat) : State :=
  let rows := kind.victims σ.tasks selected
  if rows.isEmpty then σ
  else
    openCall { σ with tasks := Rows.update σ.tasks (fun t => rows.any fun row => row.id == t.id) (Task.fail kind.reason) }
      callId (.handle (rows.map Task.id))

def setWork (σ : State) (callId : Nat) (work : Work) : State :=
  { σ with calls := Rows.update σ.calls (fun c => c.id == callId) fun c => { c with work := work } }

/-- `MaybeRetryFailedTask` -/
def maybeRetry (σ : State) (now newTaskId : Nat) (t : Task) : State :=
  match t.failureReason with
  | none => σ
  | some reason =>
    if t.status = .failed ∧ retryEligible reason t then addTask σ (retryChild t reason now newTaskId) else σ

/-- The next row of `HandleFailedTasks`. -/
def handleNext (σ : State) (now callId newTaskId : Nat) : State :=
  match findCall σ callId with
  | some ⟨_, .handle (taskId :: rest)⟩ =>
    let left := if rest.isEmpty then closeCall σ callId else setWork σ callId (.handle rest)
    match findTask σ.tasks taskId with
    | none => left
    | some t => maybeRetry left now newTaskId t
  | _ => σ

/-! ## Steps -/

inductive Action
  | send (now taskId messageId : Nat)
  | claim (now : Nat) (locked : List Nat)
  | start (taskId : Nat)
  | waitLocalDirectory (taskId : Nat)
  /-- `PromoteDueDeferredTasksForRuntime` -/
  | promote (taskId : Nat)
  /-- `CreateTaskMessage`, also after the end of the task -/
  | taskMessage (taskId : Nat)
  | complete (now taskId messageId : Nat)
  | fail (now taskId newTaskId messageId : Nat) (reason : String)
  | cancel (callId taskId : Nat) (clientSupportsDraftRestore : Bool)
  | finalize (now callId messageId : Nat)
  | cancelQueued (taskId : Nat) (action : QueueAction)
  | cancelFollowUps
  | cancelAgent
  | finalizeDeferred (now taskId messageId : Nat)
  | sweep (callId : Nat) (kind : Sweep) (selected : List Nat)
  | handleNext (now callId newTaskId : Nat)

def Action.newTask : Action → Option Nat
  | .send _ taskId _ => some taskId
  | .fail _ _ newTaskId _ _ => some newTaskId
  | .handleNext _ _ newTaskId => some newTaskId
  | _ => none

def Action.newMessage : Action → Option Nat
  | .send _ _ messageId => some messageId
  | .complete _ _ messageId => some messageId
  | .fail _ _ _ messageId _ => some messageId
  | .finalize _ _ messageId => some messageId
  | .finalizeDeferred _ _ messageId => some messageId
  | _ => none

def Action.newCall : Action → Option Nat
  | .cancel callId _ _ => some callId
  | .sweep callId _ _ => some callId
  | _ => none

/-- The ids that the step brings are new. -/
def Action.fresh (σ : State) (a : Action) : Bool :=
  (a.newTask.all fun id => σ.tasks.all fun t => t.id != id) &&
    (a.newMessage.all fun id => !σ.issued.contains id) &&
    (a.newCall.all fun id => σ.calls.all fun c => c.id != id)

def perform (σ : State) : Action → State
  | .send now taskId messageId => send σ now taskId messageId
  | .claim now locked => claim σ now locked
  | .start taskId =>
    moveTask σ taskId (fun t => t.status == .dispatched || t.status == .waitingLocalDirectory)
      fun t => { t with status := .running, started := true }
  | .waitLocalDirectory taskId =>
    moveTask σ taskId (fun t => t.status == .dispatched) (Task.setStatus .waitingLocalDirectory)
  | .promote taskId => moveTask σ taskId (fun t => t.status == .deferred) (Task.setStatus .queued)
  | .taskMessage taskId =>
    moveTask σ taskId (fun _ => true) fun t => { t with taskMessages := t.taskMessages + 1 }
  | .complete now taskId messageId => complete σ now taskId messageId
  | .fail now taskId newTaskId messageId reason => failTask σ now taskId newTaskId messageId reason
  | .cancel callId taskId supports => cancelTask σ callId taskId supports
  | .finalize now callId messageId => finalize σ now callId messageId
  | .cancelQueued taskId action => cancelQueued σ taskId action
  | .cancelFollowUps => cancelFollowUps σ
  | .cancelAgent => cancelAgent σ
  | .finalizeDeferred now taskId messageId => finalizeDeferred σ now taskId messageId
  | .sweep callId kind selected => sweep σ callId kind selected
  | .handleNext now callId newTaskId => handleNext σ now callId newTaskId

def step (σ : State) (a : Action) : Unit × State := ((), if a.fresh σ then perform σ a else σ)

end ClawMessenger.Ports.ChatTurns
