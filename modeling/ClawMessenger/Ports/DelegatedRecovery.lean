import ClawMessenger.Verified.Machine
import ClawMessenger.Verified.Rows

/-!
# Recovery of failed delegated tasks

`ensureDelegatedFailureRecoveryComment`, `dispatchDelegatedFailureRecovery` and
`exhaustDelegatedFailureRecovery` of `server/internal/service/task.go`, with the
statements of `server/pkg/db/queries/agent.sql` that they run.

Any number of dispatches run at once, on any replica, each one statement at a
time.  The transaction that writes a recovery comment holds the lock of the failed
task from its start, so it is one step.  The transaction of an exhaustion takes the
lock of the newest recovery task with its first statement; what it writes is seen
when it commits, and until then that row is not changed by anyone else.
-/

namespace ClawMessenger.Ports.DelegatedRecovery

open Verified

/-! ## Tasks of coordinators -/

inductive Status
  | queued
  | deferred
  | dispatched
  | waitingLocalDirectory
  | running
  | completed
  | failed
  | cancelled
  deriving DecidableEq, Repr

/-- A row of `agent_task_queue` with an issue; the rows stand in the order of their
creation. -/
structure Task where
  id : Nat
  issueId : Nat
  agentId : Nat
  status : Status
  /-- `context->>'channel_issue_media_pending' = 'true'` -/
  mediaPending : Bool
  triggerCommentId : Option Nat
  coalescedCommentIds : List Nat
  deliveredCommentIds : List Nat
  /-- `trigger_evidence_ref_id`, where the kind is `delegated_failure` -/
  delegatedFailure : Option Nat
  /-- Not a column: the failed task for whose recovery the row was inserted. -/
  recoveryOf : Option Nat

section

variable (t : Task)

/-- Before its claim: in the statuses that a comment is folded into. -/
def Task.unclaimed : Bool := t.status == .queued || (t.status == .deferred && t.mediaPending)

/-- The predicate of `idx_one_pending_task_per_issue_agent_v2`. -/
def Task.pending : Bool := t.unclaimed || t.status == .dispatched

/-- Claimed, and not over. -/
def Task.active : Bool :=
  t.status == .dispatched || t.status == .running || t.status == .waitingLocalDirectory

def Task.executable : Bool := t.unclaimed || t.active

def Task.notOver : Bool := t.executable || t.status == .deferred

def Task.planned (commentId : Nat) : Bool :=
  t.triggerCommentId == some commentId || t.coalescedCommentIds.contains commentId

def Task.belongs (issueId agentId : Nat) : Bool := t.issueId == issueId && t.agentId == agentId

end

/-! ## Failed tasks -/

/-- What `issue_effective_status` makes of the status of an issue. -/
inductive IssueStatus
  | open
  | done
  | cancelled
  | backlog

/-- What `loadDelegatedFailureRecoveryTarget` reads, the source task's ids apart. -/
structure Facts where
  failed : Bool
  autopilotRun : Bool
  isRecovery : Bool
  hasRetry : Bool
  sourceFound : Bool
  sourceAutopilotRun : Bool
  issueStatus : Option IssueStatus
  agentFound : Bool
  agentArchived : Bool
  agentHasRuntime : Bool
  sameWorkspace : Bool

structure DelegatedTask where
  agentId : Nat
  sourceIssueId : Option Nat
  sourceAgentId : Nat
  facts : Facts

structure Target where
  failedId : Nat
  issueId : Nat
  agentId : Nat

/-- `loadDelegatedFailureRecoveryTarget` -/
def loadTarget (failedId : Nat) (d : DelegatedTask) : Option Target :=
  if !d.facts.failed || d.facts.autopilotRun || d.facts.isRecovery then none
  else if d.facts.hasRetry then none
  else if !d.facts.sourceFound then none
  else
    match d.sourceIssueId with
    | none => none
    | some issueId =>
      if d.facts.sourceAutopilotRun || d.sourceAgentId == d.agentId then none
      else
        match d.facts.issueStatus with
        | some .open =>
          if !d.facts.agentFound || d.facts.agentArchived || !d.facts.agentHasRuntime || !d.facts.sameWorkspace
          then none
          else some ⟨failedId, issueId, d.sourceAgentId⟩
        | _ => none

/-! ## Dispatches -/

def delegatedFailureRecoveryMaxTaskAttempts : Nat := 3

/-- The next statement of a dispatch. -/
inductive Point
  | coverage
  | count
  | merge
  | create
  | register
  /-- the first statement of the exhaustion -/
  | acknowledge
  /-- in the transaction, with the row that it acknowledged and locked -/
  | lookUp (locked : Nat)
  | commit (locked : Nat) (found : Bool)
  deriving DecidableEq, Repr

/-- A running `dispatchDelegatedFailureRecovery`. -/
structure Dispatch where
  id : Nat
  target : Target
  commentId : Nat
  excludeTaskId : Option Nat
  attempt : Nat
  /-- What its last count returned. -/
  recoveryTasks : Nat
  point : Point

/-- The row that its transaction has locked. -/
def Dispatch.lock (d : Dispatch) : Option Nat :=
  match d.point with
  | .lookUp locked => some locked
  | .commit locked _ => some locked
  | _ => none

inductive Outcome
  | covered
  | replayed
  | exhausted

inductive Reply
  | nothing
  /-- the statement waits for a lock, or the dispatch goes on -/
  | goesOn
  | done (dispatch : Dispatch) (outcome : Outcome)
  | error

structure State where
  tasks : List Task
  delegated : Nat → Option DelegatedTask
  /-- recovery comments: their id and source task -/
  recoveryComments : List (Nat × Nat)
  /-- the source tasks of the exhaustion comments -/
  notices : List Nat
  dispatches : List Dispatch

def start : State := ⟨[], fun _ => none, [], [], []⟩

def locked (σ : State) (taskId : Nat) : Bool := σ.dispatches.any fun d => d.lock == some taskId

/-- `ORDER BY created_at DESC LIMIT 1` -/
def newest (tasks : List Task) (p : Task → Bool) : Option Task := (tasks.filter p).getLast?

/-! ## Statements -/

/-- `HasTaskCoveringDelegatedFailureComment` -/
def covered (tasks : List Task) (issueId agentId commentId : Nat) (excludeTaskId : Option Nat) : Bool :=
  tasks.any fun t =>
    t.belongs issueId agentId && (t.deliveredCommentIds.contains commentId ||
      (some t.id != excludeTaskId && t.executable && t.planned commentId))

def attemptOf (failedId : Nat) (t : Task) : Bool := t.delegatedFailure == some failedId

/-- `CountDelegatedFailureRecoveryTasks` -/
def countRecoveryTasks (tasks : List Task) (failedId : Nat) : Nat := (tasks.filter (attemptOf failedId)).length

/-- An id joins a set of comments, as `array_agg(DISTINCT …)` makes it. -/
def addId (ids : List Nat) (id : Nat) : List Nat := if ids.contains id then ids else ids ++ [id]

/-- What a merge makes of a row: the old trigger joins the plan. -/
def Task.foldIn (commentId : Nat) (t : Task) : Task :=
  { t with
    coalescedCommentIds := (match t.triggerCommentId with
      | none => t.coalescedCommentIds
      | some old => addId t.coalescedCommentIds old).filter (· ≠ commentId)
    triggerCommentId := some commentId }

def Task.register (commentId : Nat) (t : Task) : Task :=
  { t with coalescedCommentIds := addId t.coalescedCommentIds commentId }

def Task.acknowledge (commentId : Nat) (t : Task) : Task :=
  { t with deliveredCommentIds := addId t.deliveredCommentIds commentId }

def updateTask (tasks : List Task) (id : Nat) (f : Task → Task) : List Task :=
  Rows.update tasks (fun t => t.id == id) f

def fresh (tasks : List Task) (id : Nat) : Bool := tasks.all fun t => t.id ≠ id

/-- The unique index has a row of the pair. -/
def slotTaken (tasks : List Task) (issueId agentId : Nat) : Bool :=
  tasks.any fun t => t.belongs issueId agentId && t.pending

def recoveryTask (newTaskId : Nat) (target : Target) (commentId : Nat) : Task where
  id := newTaskId
  issueId := target.issueId
  agentId := target.agentId
  status := .queued
  mediaPending := false
  triggerCommentId := some commentId
  coalescedCommentIds := []
  deliveredCommentIds := []
  delegatedFailure := some target.failedId
  recoveryOf := some target.failedId

/-! ## A dispatch takes a statement -/

def setDispatch (σ : State) (dispatchId : Nat) (f : Dispatch → Dispatch) : State :=
  { σ with dispatches := Rows.update σ.dispatches (fun e => e.id == dispatchId) f }

section

variable (σ : State) (d : Dispatch)

def goTo (point : Point) : Reply × State :=
  (.goesOn, setDispatch σ d.id fun e => { e with point := point })

def finish (reply : Reply) : Reply × State :=
  (reply, { σ with dispatches := σ.dispatches.filter fun e => e.id ≠ d.id })

/-- The tasks are changed by one of the two writing statements, and the dispatch is over. -/
def write (t : Task) (f : Task → Task) : Reply × State :=
  if locked σ t.id then (.goesOn, σ)
  else finish { σ with tasks := updateTask σ.tasks t.id f } d (.done d .replayed)

/-- After the last of the three passes the slot could not be acquired. -/
def nextPass : Reply × State :=
  if 3 ≤ d.attempt + 1 then finish σ d .error
  else (.goesOn, setDispatch σ d.id fun e => { e with attempt := d.attempt + 1, point := .coverage })

def commitExhaustion (row : Nat) (found : Bool) : Reply × State :=
  let tasks := updateTask σ.tasks row (Task.acknowledge d.commentId)
  let notices := if found then σ.notices else σ.notices ++ [d.target.failedId]
  finish { σ with tasks := tasks, notices := notices } d (.done d (if found then .covered else .exhausted))

/-- `AcknowledgeExhaustedDelegatedFailureRecovery`: without a row, the transaction fails. -/
def acknowledgeExhausted : Reply × State :=
  match newest σ.tasks (attemptOf d.target.failedId) with
  | none => finish σ d .error
  | some t =>
    if locked σ t.id then (.goesOn, σ)
    else if countRecoveryTasks σ.tasks d.target.failedId < delegatedFailureRecoveryMaxTaskAttempts then
      finish σ d .error
    else goTo σ d (.lookUp t.id)

/-- The next statement of `dispatchDelegatedFailureRecovery`; an id for a task that it
may insert. -/
def dispatchStep (newTaskId : Nat) : Reply × State :=
  match d.point with
  | .coverage =>
    if covered σ.tasks d.target.issueId d.target.agentId d.commentId d.excludeTaskId then
      finish σ d (.done d .covered)
    else goTo σ d .count
  | .count =>
    let recoveryTasks := countRecoveryTasks σ.tasks d.target.failedId
    if delegatedFailureRecoveryMaxTaskAttempts ≤ recoveryTasks then goTo σ d .acknowledge
    else (.goesOn, setDispatch σ d.id fun e => { e with recoveryTasks := recoveryTasks, point := .merge })
  | .merge =>
    match newest σ.tasks fun t =>
        t.belongs d.target.issueId d.target.agentId && t.unclaimed && !t.planned d.commentId with
    | none => goTo σ d .create
    | some t => write σ d t (Task.foldIn d.commentId)
  | .create =>
    if slotTaken σ.tasks d.target.issueId d.target.agentId then goTo σ d .register
    else if fresh σ.tasks newTaskId then
      finish { σ with tasks := σ.tasks ++ [recoveryTask newTaskId d.target d.commentId] } d (.done d .replayed)
    else finish σ d .error
  | .register =>
    match newest σ.tasks fun t => t.belongs d.target.issueId d.target.agentId && t.active with
    | none => nextPass σ d
    | some t => write σ d t (Task.register d.commentId)
  | .acknowledge => acknowledgeExhausted σ d
  | .lookUp row => goTo σ d (.commit row (σ.notices.contains d.target.failedId))
  | .commit row found => commitExhaustion σ d row found

end

/-! ## Other writers of the rows -/

/-- The statements on one row that has not ended. -/
inductive RowAction
  | promote
  | claim
  /-- `SetTaskDeliveredCommentIDs` -/
  | receipt (delivered : List Nat)
  | requeue
  | start
  | waitLocalDirectory
  | complete
  | fail
  | cancel

def RowAction.guard (tasks : List Task) : RowAction → Task → Bool
  | .promote, t =>
    t.status == .deferred && (t.mediaPending || !slotTaken tasks t.issueId t.agentId)
  | .claim, t => t.status == .queued && !tasks.any fun u => u.belongs t.issueId t.agentId && u.active
  | .receipt delivered, t => t.status == .dispatched && delivered.all t.planned
  | .requeue, t => t.status == .dispatched
  | .start, t => t.status == .dispatched || t.status == .waitingLocalDirectory
  | .waitLocalDirectory, t => t.status == .dispatched
  | .complete, t => t.status == .running
  | .fail, t => t.notOver
  | .cancel, t => t.notOver

def RowAction.apply : RowAction → Task → Task
  | .promote, t => { t with status := .queued }
  | .claim, t => { t with status := .dispatched }
  | .receipt delivered, t => { t with deliveredCommentIds := delivered }
  | .requeue, t => { t with status := .queued, deliveredCommentIds := [] }
  | .start, t => { t with status := .running }
  | .waitLocalDirectory, t => { t with status := .waitingLocalDirectory }
  | .complete, t => { t with status := .completed }
  | .fail, t => { t with status := .failed }
  | .cancel, t => { t with status := .cancelled }

/-- The child of `CreateRetryTask`; the pending slot is yielded. -/
def retryChild (tasks : List Task) (parentId newTaskId : Nat) (deferred : Bool) : Option Task :=
  match tasks.find? fun t => t.id == parentId && t.status == .failed with
  | none => none
  | some p =>
    let child : Task :=
      { p with
        id := newTaskId
        status := if deferred then .deferred else .queued
        deliveredCommentIds := [] }
    if fresh tasks newTaskId && !(child.pending && slotTaken tasks p.issueId p.agentId) then some child else none

/-! ## Steps -/

inductive Action
  /-- A delegated task is there, or what is known of it changes. -/
  | delegate (failedId : Nat) (d : DelegatedTask)
  | facts (failedId : Nat) (facts : Facts)
  /-- `ensureDelegatedFailureRecoveryComment` -/
  | ensure (failedId newCommentId : Nat)
  /-- `dispatchDelegatedFailureRecoveryComment`, up to the first statement -/
  | dispatch (dispatchId commentId : Nat) (excludeTaskId : Option Nat)
  | advance (dispatchId newTaskId : Nat)
  /-- A statement fails, or the process ends. -/
  | crash (dispatchId : Nat)
  /-- Another task of a coordinator is inserted. -/
  | enqueue (t : Task)
  | row (taskId : Nat) (action : RowAction)
  /-- `MergeCommentIntoPendingTask`, which stamps its own evidence -/
  | mergeComment (issueId agentId commentId : Nat)
  /-- `RegisterPlannedCommentForActiveTask` for another comment -/
  | registerComment (issueId agentId commentId : Nat)
  | retry (parentId newTaskId : Nat) (deferred : Bool)

def ensureRecoveryComment (σ : State) (failedId newCommentId : Nat) : State :=
  match (σ.delegated failedId).bind (loadTarget failedId) with
  | none => σ
  | some _ =>
    if σ.recoveryComments.any fun c => c.2 == failedId then σ
    else { σ with recoveryComments := σ.recoveryComments ++ [(newCommentId, failedId)] }

def startDispatch (σ : State) (dispatchId commentId : Nat) (excludeTaskId : Option Nat) : State :=
  match σ.recoveryComments.find? fun c => c.1 == commentId with
  | none => σ
  | some c =>
    match (σ.delegated c.2).bind (loadTarget c.2) with
    | none => σ
    | some target =>
      if σ.dispatches.any fun e => e.id == dispatchId then σ
      else { σ with dispatches := σ.dispatches ++ [⟨dispatchId, target, commentId, excludeTaskId, 0, 0, .coverage⟩] }

/-- A statement of another writer on one row. -/
def writeRow (σ : State) (t : Option Task) (f : Task → Task) : State :=
  match t with
  | none => σ
  | some t => if locked σ t.id then σ else { σ with tasks := updateTask σ.tasks t.id f }

def step (σ : State) : Action → Reply × State
  | .delegate failedId d =>
    match σ.delegated failedId with
    | none => (.nothing, { σ with delegated := Function.update σ.delegated failedId (some d) })
    | some _ => (.nothing, σ)
  | .facts failedId facts =>
    match σ.delegated failedId with
    | none => (.nothing, σ)
    | some d =>
      (.nothing, { σ with delegated := Function.update σ.delegated failedId (some { d with facts := facts }) })
  | .ensure failedId newCommentId => (.nothing, ensureRecoveryComment σ failedId newCommentId)
  | .dispatch dispatchId commentId excludeTaskId =>
    (.nothing, startDispatch σ dispatchId commentId excludeTaskId)
  | .advance dispatchId newTaskId =>
    match σ.dispatches.find? fun e => e.id == dispatchId with
    | none => (.nothing, σ)
    | some d => dispatchStep σ d newTaskId
  | .crash dispatchId => (.error, { σ with dispatches := σ.dispatches.filter fun e => e.id ≠ dispatchId })
  | .enqueue t =>
    if fresh σ.tasks t.id && !(t.pending && slotTaken σ.tasks t.issueId t.agentId) then
      let inserted := { t with deliveredCommentIds := [], delegatedFailure := none, recoveryOf := none }
      (.nothing, { σ with tasks := σ.tasks ++ [inserted] })
    else (.nothing, σ)
  | .row taskId action =>
    (.nothing, writeRow σ (σ.tasks.find? fun t => t.id == taskId && action.guard σ.tasks t) action.apply)
  | .mergeComment issueId agentId commentId =>
    (.nothing, writeRow σ (newest σ.tasks fun t => t.belongs issueId agentId && t.unclaimed)
      fun t => { t.foldIn commentId with delegatedFailure := none })
  | .registerComment issueId agentId commentId =>
    (.nothing, writeRow σ (newest σ.tasks fun t => t.belongs issueId agentId && t.active)
      (Task.register commentId))
  | .retry parentId newTaskId deferred =>
    match retryChild σ.tasks parentId newTaskId deferred with
    | none => (.nothing, σ)
    | some child => (.nothing, { σ with tasks := σ.tasks ++ [child] })

end ClawMessenger.Ports.DelegatedRecovery
