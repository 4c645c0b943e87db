import ClawMessenger.Verified.LastVerdict

/-!
# The resume pointer of a chat session

The statements of `server/pkg/db/queries/chat.sql` and `agent.sql` that move
`chat_session.session_id`, and the transactions of
`server/internal/service/task.go` and `server/internal/handler/task_lifecycle.go`
that run them, on the tasks of one chat session.

Each of these transactions locks the chat session first, so each is one step.
A statement that changes several rows is taken row by row.  Whether a failure is
retried is decided elsewhere (`RetryChains`); here the child that was made, if
any, is an input.
-/

namespace ClawMessenger.Ports.ChatResumePointer

open Verified

/-! ## Failures after which a session is not resumed -/

/-- `strings.Contains`, and what stands after the word. -/
def containsAnd (word : String) (p : List Char → Bool) (text : List Char) : Bool :=
  text.tails.any fun rest => word.toList.isPrefixOf rest && p (rest.drop word.length)

def contains (word : String) (text : List Char) : Bool := containsAnd word (fun _ => true) text

/-- `strings.ToLower`, as far as its result is ASCII. -/
def toLower (text : List Char) : List Char :=
  text.map fun c => if c.val = 0x130 then 'i' else if c.val = 0x212A then 'k' else c.toLower

/-- The letter that `(?i)` compares, as far as it is ASCII. -/
def foldCase (text : List Char) : List Char :=
  text.map fun c => if c.val = 0x17F then 's' else if c.val = 0x212A then 'k' else c.toLower

/-- `emptyContentRe` -/
def emptyContent (folded : List Char) : Bool :=
  ["must not be empty", "must be nonempty", "must be non-empty", "must have nonempty", "must have non-empty",
    "nonempty content", "non-empty content", "cannot be empty", "should not be empty"].any fun word =>
      contains word folded

def startsWithDigit (rest : List Char) : Bool := rest.head?.any Char.isDigit

/-- `[^a-z0-9]{0,2}assistant` -/
def assistantFollows (rest : List Char) : Bool :=
  [0, 1, 2].any fun n =>
    n ≤ rest.length && (rest.take n).all (fun c => !(c.isLower || c.isDigit)) && "assistant".toList.isPrefixOf (rest.drop n)

/-- `historyMessageLocatorRe` -/
def historyMessageLocator (folded : List Char) : Bool :=
  containsAnd "role" assistantFollows folded || contains "assistant message" folded ||
    contains "message at position" folded || containsAnd "messages." startsWithDigit folded ||
    containsAnd "messages[" startsWithDigit folded

def unresumableHistory (errText : String) : Bool :=
  emptyContent (foldCase errText.toList) && historyMessageLocator (foldCase errText.toList)

def authMethodUnresolved (errText : String) : Bool :=
  contains "could not resolve authentication method" (toLower errText.toList)

def resumeUnsafeFailureReason (reason : String) : Bool :=
  ["iteration_limit", "agent_fallback_message", "api_invalid_request", "codex_semantic_inactivity",
    "agent_error.context_overflow", "codex_resume_oversized"].contains reason

def resumeUnsafeFailure (failureReason errorText : String) : Bool :=
  resumeUnsafeFailureReason failureReason ||
    (contains "400" (toLower errorText.toList) && contains "invalid_request_error" (toLower errorText.toList)) ||
    authMethodUnresolved errorText || unresumableHistory errorText

/-! ## Rows -/

abbrev SessionId := Nat

inductive Status
  | queued
  | deferred
  | dispatched
  | waitingLocalDirectory
  | running
  | completed
  | failed
  | cancelled
  deriving DecidableEq, Repr

def Status.active : Status → Bool
  | .queued => true
  | .deferred => true
  | .dispatched => true
  | .waitingLocalDirectory => true
  | .running => true
  | _ => false

/-- A row of `agent_task_queue` of this chat.  `completedAt` is the place of its
ending in the order of commits. -/
structure Task where
  id : Nat
  runtimeId : Nat
  status : Status
  createdAt : Nat
  completedAt : Option Nat
  sessionId : Option SessionId
  workDir : Option Nat
  retiredSessionId : Option SessionId
  sessionRolloutMissing : Bool
  error : Option String
  failureReason : Option String
  deriving DecidableEq, Repr

/-- The row of `chat_session`. -/
structure ChatSession where
  sessionId : Option SessionId
  workDir : Option Nat
  runtimeId : Option Nat

structure State where
  now : Nat
  tasks : List Task
  chat : ChatSession

def start : State := ⟨0, [], ⟨none, none, none⟩⟩

/-- `UPDATE … WHERE id = $1 AND …`, with the row that it changes. -/
def updateRow (tasks : List Task) (id : Nat) (guard : Task → Bool) : Option Task :=
  tasks.find? fun t => t.id = id && guard t

def setRow (tasks : List Task) (id : Nat) (guard : Task → Bool) (f : Task → Task) : List Task :=
  Rows.update tasks (fun t => t.id = id && guard t) f

/-! ## Statements on the pointer -/

def updateChatSessionSession (chat : ChatSession) (sessionId : Option SessionId) (workDir runtimeId : Option Nat) :
    ChatSession :=
  { sessionId := sessionId.or chat.sessionId
    workDir := workDir.or chat.workDir
    runtimeId := runtimeId.or chat.runtimeId }

def clearChatSessionSessionIfMatches (chat : ChatSession) (sessionId : SessionId) (runtimeId : Nat) : ChatSession :=
  if chat.sessionId = some sessionId ∧ chat.runtimeId = some runtimeId then
    { chat with sessionId := none, runtimeId := none }
  else chat

/-- The same for a session that the caller found no longer usable, if any. -/
def clearDead (chat : ChatSession) (dead : Option SessionId) (runtimeId : Nat) : ChatSession :=
  match dead with
  | none => chat
  | some sessionId => clearChatSessionSessionIfMatches chat sessionId runtimeId

/-- The row that `AdvanceCancelledChatSessionPointer` finds, with its session. -/
def advancing (tasks : List Task) (taskId : Nat) : Option (Task × SessionId) :=
  match tasks.find? fun t => t.id = taskId && t.status == .cancelled with
  | none => none
  | some t =>
    match t.sessionId with
    | none => none
    | some sessionId =>
      if tasks.any fun newer => newer.id ≠ t.id && newer.sessionId.isSome && t.createdAt < newer.createdAt then none
      else some (t, sessionId)

def advanceCancelledChatSessionPointer (tasks : List Task) (chat : ChatSession) (taskId : Nat) : ChatSession :=
  match advancing tasks taskId with
  | none => chat
  | some (t, sessionId) =>
    { sessionId := some sessionId, workDir := t.workDir.or chat.workDir, runtimeId := some t.runtimeId }

/-! ## Statements on the tasks -/

/-- What a terminal report says of the session. -/
structure Report where
  sessionId : Option SessionId
  workDir : Option Nat
  sessionRolloutMissing : Bool
  retiredSessionId : Option SessionId

def completable (t : Task) : Bool := t.status == .running

def Task.completeAgentTask (now : Nat) (report : Report) (t : Task) : Task :=
  { t with
    status := .completed
    completedAt := some now
    sessionId := if report.sessionRolloutMissing then none else report.sessionId
    workDir := report.workDir
    sessionRolloutMissing := report.sessionRolloutMissing
    retiredSessionId := report.retiredSessionId.or t.retiredSessionId }

def failable (t : Task) : Bool :=
  t.status == .dispatched || t.status == .running || t.status == .waitingLocalDirectory

def Task.failAgentTask (now : Nat) (errMsg failureReason : String) (report : Report) (t : Task) : Task :=
  { t with
    status := .failed
    completedAt := some now
    error := some errMsg
    failureReason := some failureReason
    sessionId := if report.sessionRolloutMissing then none else report.sessionId.or t.sessionId
    workDir := report.workDir.or t.workDir
    sessionRolloutMissing := report.sessionRolloutMissing
    retiredSessionId := report.retiredSessionId.or t.retiredSessionId }

/-- The bulk failures of the sweepers. -/
inductive Sweep
  | runtimeRecovery
  | timeout
  | queuedExpired
  | reconnectTimeout
  | runtimeOffline

def Sweep.guard : Sweep → Task → Bool
  | .runtimeRecovery, t => failable t
  | .timeout, t => t.status == .dispatched || t.status == .running
  | .queuedExpired, t => t.status == .queued
  | .reconnectTimeout, t => t.status == .deferred
  | .runtimeOffline, t => failable t

def Sweep.error : Sweep → String
  | .runtimeRecovery => "daemon restarted while task was in flight"
  | .timeout => "task timed out"
  | .queuedExpired => "task expired in queue"
  | .reconnectTimeout => "runtime did not reconnect within the configured grace period"
  | .runtimeOffline => "runtime went offline"

def Sweep.failureReason : Sweep → String
  | .runtimeRecovery => "runtime_recovery"
  | .timeout => "timeout"
  | .queuedExpired => "queued_expired"
  | .reconnectTimeout => "runtime_reconnect_timeout"
  | .runtimeOffline => "runtime_offline"

def Task.sweep (now : Nat) (sweep : Sweep) (t : Task) : Task :=
  { t with
    status := .failed, completedAt := some now, error := some sweep.error, failureReason := some sweep.failureReason }

/-- `CancelAgentTask` and its siblings; `CancelAgentTaskWithReason` writes a cause. -/
def Task.cancel (now : Nat) (cause : Option (String × String)) (t : Task) : Task :=
  { t with
    status := .cancelled
    completedAt := some now
    error := (cause.map Prod.fst).or t.error
    failureReason := (cause.map Prod.snd).or t.failureReason }

/-- `UpdateAgentTaskSession` -/
def pinnable (t : Task) : Bool :=
  t.status == .dispatched || t.status == .running || (t.status == .cancelled && t.sessionId.isNone)

def Task.pin (sessionId : Option SessionId) (workDir : Option Nat) (t : Task) : Task :=
  { t with sessionId := sessionId.or t.sessionId, workDir := workDir.or t.workDir }

/-- A child that `CreateRetryTask` inserts: its id, when it is created and whether it
is deferred. -/
structure Child where
  id : Nat
  createdAt : Nat
  deferred : Bool

def fresh (tasks : List Task) (id : Nat) : Bool := tasks.all fun t => t.id ≠ id

def createRetryTask (tasks : List Task) (parentId : Nat) (child : Child) : List Task :=
  match tasks.find? fun t => t.id = parentId with
  | none => tasks
  | some p =>
    if fresh tasks child.id then
      tasks ++ [{
        id := child.id
        runtimeId := p.runtimeId
        status := if child.deferred then .deferred else .queued
        createdAt := child.createdAt
        completedAt := none
        sessionId := if p.failureReason = some "codex_semantic_inactivity" then none else p.sessionId
        workDir := if p.failureReason = some "codex_semantic_inactivity" then none else p.workDir
        retiredSessionId := none
        sessionRolloutMissing := false
        error := none
        failureReason := none }]
    else tasks

/-- With the child, where one was made. -/
def withRetry (tasks : List Task) (parentId : Nat) (retry : Option Child) : List Task :=
  match retry with
  | none => tasks
  | some child => createRetryTask tasks parentId child

/-! ## Transactions -/

/-- `CompleteTask` -/
def completeTask (σ : State) (id : Nat) (report : Report) : State :=
  match updateRow σ.tasks id completable with
  | none => σ
  | some t =>
    let chat := updateChatSessionSession σ.chat report.sessionId report.workDir
      (report.sessionId.map fun _ => t.runtimeId)
    { now := σ.now + 1
      tasks := setRow σ.tasks id completable (Task.completeAgentTask σ.now report)
      chat := clearDead chat report.retiredSessionId t.runtimeId }

/-- What `FailTask` does to the pointer, with the row as it was updated. -/
def failedChat (chat : ChatSession) (t : Task) (errMsg failureReason : String) (report : Report) : ChatSession :=
  let poisoned :=
    if resumeUnsafeFailure failureReason errMsg then clearDead chat (report.sessionId.or t.sessionId) t.runtimeId
    else chat
  let cleared := clearDead poisoned report.retiredSessionId t.runtimeId
  if resumeUnsafeFailure failureReason errMsg then cleared
  else updateChatSessionSession cleared report.sessionId report.workDir (report.sessionId.map fun _ => t.runtimeId)

/-- `FailTask`, with the reason as `NormalizeDaemonReason` left it. -/
def failTask (σ : State) (id : Nat) (errMsg failureReason : String) (report : Report) (retry : Option Child) :
    State :=
  match updateRow σ.tasks id failable with
  | none => σ
  | some t =>
    let tasks := setRow σ.tasks id failable (Task.failAgentTask σ.now errMsg failureReason report)
    { now := σ.now + 1
      tasks := withRetry tasks id retry
      chat := failedChat σ.chat (t.failAgentTask σ.now errMsg failureReason report) errMsg failureReason report }

/-- `CancelTaskWithResult`, not on a queued follow-up. -/
def cancelTask (σ : State) (id : Nat) (cause : Option (String × String)) : State :=
  match updateRow σ.tasks id fun t => t.status.active with
  | none => σ
  | some _ =>
    let tasks := setRow σ.tasks id (fun t => t.status.active) (Task.cancel σ.now cause)
    { now := σ.now + 1, tasks := tasks, chat := advanceCancelledChatSessionPointer tasks σ.chat id }

/-- The tasks after the first statement of `PinTaskSession`. -/
def pinned (tasks : List Task) (id : Nat) (sessionId : Option SessionId) (workDir : Option Nat) : List Task :=
  setRow tasks id pinnable (Task.pin sessionId workDir)

/-- `PinTaskSession` -/
def pinTaskSession (σ : State) (id : Nat) (sessionId : Option SessionId) (workDir : Option Nat) : State :=
  { σ with
    tasks := pinned σ.tasks id sessionId workDir
    chat := advanceCancelledChatSessionPointer (pinned σ.tasks id sessionId workDir) σ.chat id }

/-! ## Steps -/

inductive Action
  | enqueue (id runtimeId createdAt : Nat)
  /-- `PromoteDueDeferredTasksForRuntime` -/
  | promote (id : Nat)
  /-- `ClaimAgentTask` -/
  | claim (id : Nat)
  | waitLocalDirectory (id : Nat)
  | start (id : Nat)
  | pin (id : Nat) (sessionId : Option SessionId) (workDir : Option Nat)
  | complete (id : Nat) (report : Report)
  | fail (id : Nat) (errMsg failureReason : String) (report : Report) (retry : Option Child)
  | cancel (id : Nat) (cause : Option (String × String))
  /-- a queued follow-up, or one of all tasks of an agent: the status alone -/
  | cancelStatus (id : Nat)
  | sweep (id : Nat) (kind : Sweep)
  /-- `MaybeRetryFailedTask` -/
  | retry (parentId : Nat) (child : Child)

/-- A step that only changes the status of one row. -/
def setStatus (σ : State) (id : Nat) (guard : Task → Bool) (status : Status) : State :=
  { σ with tasks := setRow σ.tasks id guard fun t => { t with status := status } }

/-- No other task of the chat is being executed. -/
def idle (tasks : List Task) : Bool := tasks.all fun t => !failable t

def step (σ : State) : Action → State
  | .enqueue id runtimeId createdAt =>
    if fresh σ.tasks id then
      { σ with tasks := σ.tasks ++
          [⟨id, runtimeId, .queued, createdAt, none, none, none, none, false, none, none⟩] }
    else σ
  | .promote id => setStatus σ id (fun t => t.status == .deferred) .queued
  | .claim id => if idle σ.tasks then setStatus σ id (fun t => t.status == .queued) .dispatched else σ
  | .waitLocalDirectory id => setStatus σ id (fun t => t.status == .dispatched) .waitingLocalDirectory
  | .start id => setStatus σ id (fun t => t.status == .dispatched || t.status == .waitingLocalDirectory) .running
  | .pin id sessionId workDir => pinTaskSession σ id sessionId workDir
  | .complete id report => completeTask σ id report
  | .fail id errMsg failureReason report retry => failTask σ id errMsg failureReason report retry
  | .cancel id cause => cancelTask σ id cause
  | .cancelStatus id =>
    { σ with now := σ.now + 1, tasks := setRow σ.tasks id (fun t => t.status.active) (Task.cancel σ.now none) }
  | .sweep id kind => { σ with now := σ.now + 1, tasks := setRow σ.tasks id kind.guard (Task.sweep σ.now kind) }
  | .retry parentId child =>
    if σ.tasks.any fun t => t.id = parentId && t.status == .failed then
      { σ with tasks := createRetryTask σ.tasks parentId child }
    else σ

def run (σ : State) (actions : List Action) : State := actions.foldl step σ

end ClawMessenger.Ports.ChatResumePointer
