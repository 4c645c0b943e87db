import ClawMessenger.Ports.TaskQueueCapacity

/-!
# Automatic retries

The two paths of `server/internal/service/task.go` that make a retry of a failed
task: `FailTask`, which decides from an earlier read of the row and inserts the
child in the transaction of the failure, and `HandleFailedTasks`, which follows
the bulk failures of the sweepers and inserts it in a transaction of its own.

The queue is the one of `TaskQueue`.  The columns that only an insertion writes
stand beside it, under the id of their row.  A transaction of `FailTask` is one
step at its commit: it holds the lock of the row that it fails.  Its count of
pending tasks takes no lock, so what it saw is an input of the step.
-/

namespace ClawMessenger.Ports.RetryChains

open Verified TaskQueue

/-! ## Columns that only an insertion writes -/

/-- What the `context` column says of a quick-create (`QuickCreateContext`); its
ids were written by `UUIDToString`, so `ParseUUID` reads them back. -/
inductive Context
  | other
  | quickCreate (workspaceId : Nat) (sourceContextId : Option Nat)

/-- `SourceContextID`, with the workspace it is looked up in. -/
def Context.source : Context → Option (Nat × Nat)
  | .other => none
  | .quickCreate workspaceId sourceContextId => sourceContextId.map fun id => (workspaceId, id)

structure Columns where
  attempt : Int
  maxAttempts : Int
  chatInputTaskId : Option Nat
  context : Context

inductive SourceState
  | pending
  | attached
  | abandoned
  deriving DecidableEq, Repr

/-- `issue_source_context` -/
structure SourceContext where
  workspaceId : Nat
  state : SourceState
  originTaskId : Option Nat

/-! ## The retry policy -/

def retryableReasons : List String :=
  ["runtime_offline", "runtime_recovery", "timeout", "codex_semantic_inactivity",
    "agent_error.provider_network", "skill_bundle_unavailable"]

def runtimeOfflineRetryDeferral : Nat := 1

def providerNetworkMaxAttempts : Int := 3

def providerNetworkFinalRetryWait : Nat := 5

def retryAttemptCeiling (reason : String) (taskMaxAttempts : Int) : Int :=
  if taskMaxAttempts ≤ 1 then taskMaxAttempts
  else if reason = "agent_error.provider_network" ∧ taskMaxAttempts < providerNetworkMaxAttempts then
    providerNetworkMaxAttempts
  else taskMaxAttempts

/-- In seconds. -/
def retryDelayForAttempt (reason : String) (failedAttempt : Int) : Nat :=
  if reason = "runtime_offline" then runtimeOfflineRetryDeferral
  else if reason = "agent_error.provider_network" ∧ providerNetworkMaxAttempts - 1 ≤ failedAttempt then
    providerNetworkFinalRetryWait
  else 0

/-- The `fire_at` of the child, which a zero delay leaves `NULL`. -/
def retryFireAt (reason : String) (failedAttempt : Int) (now : Nat) : Option Nat :=
  if 0 < retryDelayForAttempt reason failedAttempt then some (now + retryDelayForAttempt reason failedAttempt)
  else none

def isSourceContextQuickCreateTask (t : Task) (context : Context) : Bool :=
  !(t.issueId.isSome || t.chatSessionId.isSome || t.autopilotRunId.isSome) && context.source.isSome

def retryEligible (failureReason : String) (t : Task) (columns : Columns) : Bool :=
  retryableReasons.contains failureReason &&
    columns.attempt < retryAttemptCeiling failureReason columns.maxAttempts &&
    !t.autopilotRunId.isSome &&
    (t.issueId.isSome || t.chatSessionId.isSome || isSourceContextQuickCreateTask t columns.context)

/-! ## Statements of the retry -/

inductive Created
  | row (child : Task)
  /-- `pgx.ErrNoRows` -/
  | nothing
  | failed

/-- `CreateRetryTask`: the fence, the check that a task which is not over has a
runtime, `ON CONFLICT DO NOTHING` for the pending slot, the primary key. -/
def createRetryTask (db : Db) (now newTaskId parentId : Nat) (fireAt : Option Nat) (fence : Bool) : Created :=
  match (Enqueue.createRetryTask newTaskId parentId fireAt).row db now with
  | none => .nothing
  | some child =>
    if !(fence && (db.agents child.agentId).isSome) then .nothing
    else if child.runtimeId.isNone && child.completedAt.isNone then .failed
    else if !slotsDistinct (db.tasks ++ [child]) then .nothing
    else if db.tasks.any fun t => t.id = child.id then .failed
    else .row child

inductive Transferred
  /-- the parent has no source context -/
  | unneeded
  | moved (sourceContexts : Nat → Option SourceContext)
  /-- `pgx.ErrNoRows` -/
  | lost

/-- `transferPendingSourceContextToRetry` -/
def transferPendingSourceContextToRetry (sourceContexts : Nat → Option SourceContext) (context : Context)
    (parentId childId : Nat) : Transferred :=
  match context.source with
  | none => .unneeded
  | some (workspaceId, contextId) =>
    match sourceContexts contextId with
    | none => .lost
    | some c =>
      if c.workspaceId = workspaceId ∧ c.state = .pending ∧ c.originTaskId = some parentId then
        .moved (Function.update sourceContexts contextId (some { c with originTaskId := some childId }))
      else .lost

/-! ## State -/

/-- The retry that `FailTask` wants from its read of the parent. -/
structure Retry where
  maxAttempts : Int
  fireAt : Option Nat

/-- A `FailTask` before its transaction. -/
structure Failing where
  taskId : Nat
  failureReason : String
  retry : Option Retry

structure State where
  queue : TaskQueue.State
  columns : Nat → Columns
  sourceContexts : Nat → Option SourceContext
  failing : Nat → Option Failing
  /-- the rows that bulk failures returned and `HandleFailedTasks` has not come to -/
  unhandled : List Task
  /-- the tasks whose `CompleteTask` or `FailTask` has committed -/
  finished : List Nat

def State.start : State where
  queue := TaskQueue.State.start
  columns := fun _ => ⟨1, 2, none, .other⟩
  sourceContexts := fun _ => none
  failing := fun _ => none
  unhandled := []
  finished := []

def State.tasks (s : State) : List Task := s.queue.db.tasks

def State.withDb (s : State) (db : Db) : State := { s with queue := { s.queue with db := db } }

def State.setFailing (s : State) (n : Nat) (call : Option Failing) : State :=
  { s with failing := Function.update s.failing n call }

/-- A new row with its columns. -/
def State.create (s : State) (now : Nat) (fence : Bool) (e : Enqueue) (columns : Columns) : State :=
  match e.row s.queue.db now with
  | none => s
  | some t =>
    if s.tasks.any fun t' => t'.id = t.id then s
    else { s.withDb (s.queue.db.enqueue now fence e) with columns := Function.update s.columns t.id columns }

/-- The columns of the child, `max_attempts` as the caller says. -/
def Columns.child (parent : Columns) (maxAttempts : Int) : Columns :=
  { parent with attempt := parent.attempt + 1, maxAttempts := maxAttempts }

/-- The child is stored, and `CreateRetryTask` has returned it. -/
def State.addChild (s : State) (parentId : Nat) (child : Task) (maxAttempts : Int) : State :=
  { s.withDb { s.queue.db with tasks := s.tasks ++ [child] } with
    columns := Function.update s.columns child.id ((s.columns parentId).child maxAttempts) }

/-! ## `FailTask` -/

/-- What `FailTask` reads and decides before its transaction. -/
def State.readParent (s : State) (taskId : Nat) (failureReason : String) (now : Nat) : Option Retry :=
  (s.tasks.find? fun t => t.id = taskId).bind fun parent =>
    let columns := s.columns taskId
    if retryEligible failureReason parent columns then
      some ⟨retryAttemptCeiling failureReason columns.maxAttempts,
        retryFireAt failureReason columns.attempt now⟩
    else none

/-- The retry inside the transaction of the failure; none, where it rolls back. -/
def State.retryFailed (s : State) (parentId : Nat) (retry : Retry) (now newTaskId : Nat) (fence : Bool) :
    Option State :=
  match createRetryTask s.queue.db now newTaskId parentId retry.fireAt fence with
  | .nothing => some s
  | .failed => none
  | .row child =>
    let added := s.addChild parentId child retry.maxAttempts
    match transferPendingSourceContextToRetry s.sourceContexts (s.columns parentId).context parentId
      child.id with
    | .unneeded => some added
    | .moved sourceContexts => some { added with sourceContexts := sourceContexts }
    | .lost =>
      if added.tasks.countP (unstartedQuickCreate child.id) = 1 then
        some (added.withDb (added.queue.db.deleteUnstartedQuickCreateRetryTask child.id))
      else none

/-- The statement of `FailTask`. -/
def Failing.statement (call : Failing) : Statement :=
  .failAgentTask call.taskId (if call.failureReason = "" then none else some call.failureReason)

/-- The transaction of `FailTask`; none, where it rolls back. -/
def State.failTask (s : State) (call : Failing) (now newTaskId : Nat) (successor fence : Bool) :
    Option State :=
  let (db, rows) := s.queue.db.run (call.statement.change now)
  match rows with
  | [] => none
  | t :: _ =>
    let failed := { s.withDb db with finished := t.id :: s.finished }
    match call.retry with
    | none => some failed
    | some retry =>
      if t.issueId.isSome && successor then some failed
      else failed.retryFailed t.id retry now newTaskId fence

/-! ## `HandleFailedTasks` -/

/-- `MaybeRetryFailedTask`; its checks of the reason and of the budget before
`retryEligible` only decide what is logged. -/
def State.maybeRetryFailedTask (s : State) (parent : Task) (now newTaskId : Nat) (successor fence : Bool) :
    State :=
  let columns := s.columns parent.id
  let reason := parent.failureReason.getD ""
  if parent.status ≠ .failed then s
  else if !retryEligible reason parent columns then s
  else if parent.issueId.isSome && successor then s
  else
    match createRetryTask s.queue.db now newTaskId parent.id (retryFireAt reason columns.attempt now) fence with
    | .nothing => s
    | .failed => s
    | .row child =>
      let added := s.addChild parent.id child (retryAttemptCeiling reason columns.maxAttempts)
      match transferPendingSourceContextToRetry s.sourceContexts columns.context parent.id child.id with
      | .unneeded => added
      | .moved sourceContexts => { added with sourceContexts := sourceContexts }
      | .lost => s

/-- The bulk failures that `HandleFailedTasks` follows. -/
def handled : Statement → Bool
  | .recoverOrphanedTasksForRuntime _ => true
  | .failStaleTasks .. => true
  | .expireStaleQueuedTasks .. => true
  | .failExpiredRuntimeReconnectRetries .. => true
  | .failTasksForOfflineRuntimes .. => true
  | _ => false

/-- What is still to be done about the rows that a step returned. -/
def State.after (s : State) (rows : List Task) : TaskQueue.Event → State
  | .run _ st =>
    if handled st then { s with unhandled := s.unhandled ++ rows }
    else match st with
      | .completeAgentTask _ => { s with finished := rows.map Task.id ++ s.finished }
      | _ => s
  | _ => s

/-! ## Other steps -/

/-- The transaction of a manual retry of a quick-create with a source context. -/
def State.manualRetry (s : State) (now : Nat) (fence : Bool) (newTaskId sourceTaskId : Nat)
    (maxAttempts : Int) : State :=
  let columns := s.columns sourceTaskId
  let created := s.create now fence (.createManualQuickCreateRetryTask newTaskId sourceTaskId)
    ⟨1, maxAttempts, none, columns.context⟩
  if created.tasks.length = s.tasks.length then s
  else
    match transferPendingSourceContextToRetry s.sourceContexts columns.context sourceTaskId newTaskId with
    | .moved sourceContexts => { created with sourceContexts := sourceContexts }
    | _ => s

/-- `LinkTaskToIssue` -/
def State.linkTaskToIssue (s : State) (taskId issueId : Nat) : State :=
  s.withDb { s.queue.db with
    tasks := Rows.update s.tasks (fun t => t.id = taskId && t.issueId.isNone) fun t =>
      { t with issueId := some issueId } }

inductive Event
  /-- a new task that is no retry; `maxAttempts` is the default of its column -/
  | createTask (now : Nat) (fence : Bool) (e : Enqueue) (maxAttempts : Int) (chatInputTaskId : Option Nat)
      (context : Context)
  | manualRetry (now : Nat) (fence : Bool) (newTaskId sourceTaskId : Nat) (maxAttempts : Int)
  /-- claims and statements, a manual rerun's cancellation among them -/
  | queue (e : TaskQueue.Event)
  /-- the read of a `FailTask` -/
  | beginFailTask (n taskId : Nat) (failureReason : String) (now : Nat)
  /-- its transaction -/
  | failTask (n now newTaskId : Nat) (successor fence : Bool)
  /-- `HandleFailedTasks` comes to a row -/
  | handleFailedTask (taskId now newTaskId : Nat) (successor fence : Bool)
  | linkTaskToIssue (taskId issueId : Nat)
  /-- a new source context, or what `AttachIssueSourceContext` and
  `AbandonIssueSourceContext` make of one -/
  | saveSourceContext (id : Nat) (c : SourceContext)

def State.step (s : State) : Event → Unit × State
  | .createTask now fence e maxAttempts chatInputTaskId context =>
    ((), s.create now fence e ⟨1, maxAttempts, chatInputTaskId, context⟩)
  | .manualRetry now fence newTaskId sourceTaskId maxAttempts =>
    ((), s.manualRetry now fence newTaskId sourceTaskId maxAttempts)
  | .queue e =>
    let (rows, queue) := s.queue.step e
    ((), { s with queue := queue }.after rows e)
  | .beginFailTask n taskId failureReason now =>
    ((), s.setFailing n (some ⟨taskId, failureReason, s.readParent taskId failureReason now⟩))
  | .failTask n now newTaskId successor fence =>
    match s.failing n with
    | none => ((), s)
    | some call =>
      let ended := s.setFailing n none
      ((), (ended.failTask call now newTaskId successor fence).getD ended)
  | .handleFailedTask taskId now newTaskId successor fence =>
    match s.unhandled.find? fun t => t.id = taskId with
    | none => ((), s)
    | some t =>
      ((), { s.maybeRetryFailedTask t now newTaskId successor fence with
        unhandled := s.unhandled.filter fun t => t.id ≠ taskId })
  | .linkTaskToIssue taskId issueId => ((), s.linkTaskToIssue taskId issueId)
  | .saveSourceContext id c =>
    ((), { s with sourceContexts := Function.update s.sourceContexts id (some c) })

/-! ## The order of steps -/

/-- The insertions of tasks that are no retry. -/
def root : Enqueue → Bool
  | .createRetryTask .. => false
  | .createManualQuickCreateRetryTask .. => false
  | _ => true

def quickCreates : Enqueue → Bool
  | .createQuickCreateTask .. => true
  | _ => false

/-- A row lock of a claim is respected. -/
def State.unlocked (s : State) (e : TaskQueue.Event) : Prop := TaskQueue.Allowed ⟨[], s.queue⟩ e

def Allowed (c : Config State Event Unit) : Event → Prop
  | .createTask _ _ e _ _ context => root e = true ∧ (context.source.isSome = true → quickCreates e = true)
  | .manualRetry _ _ _ sourceTaskId _ => ∃ t ∈ c.state.tasks, t.id = sourceTaskId
  | .queue e => c.state.unlocked e ∧
      match e with
      | .enqueue .. => False
      | .deleteUnstartedQuickCreateRetryTask _ => False
      | .run _ (.failAgentTask ..) => False
      | _ => True
  | .failTask n now newTaskId _ _ => (∀ t ∈ c.state.tasks, t.id ≠ newTaskId) ∧
      ∀ call, c.state.failing n = some call → c.state.unlocked (.run now call.statement)
  | .handleFailedTask _ _ newTaskId _ _ => ∀ t ∈ c.state.tasks, t.id ≠ newTaskId
  /- it follows the commit of `CompleteTask` or `FailTask` -/
  | .linkTaskToIssue taskId _ => taskId ∈ c.state.finished
  | _ => True

end ClawMessenger.Ports.RetryChains
