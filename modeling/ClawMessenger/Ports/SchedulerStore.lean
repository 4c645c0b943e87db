import ClawMessenger.Verified.Machine
import ClawMessenger.Verified.Rows

/-!
# The execution table of the scheduler

`sys_cron_executions` has one row for each planned execution of a job: it is
the lease of the runner and the record of what came of it.  Every statement of
`db_ops.go` is a function from the table to its answer and the table after it;
`tryClaim` is two of them, an insertion and, where that meets a row, an update.

Times count nanoseconds from Go's zero time; the database keeps microseconds.
`gen_random_uuid()` and the id of a new row are arguments of the statement.
-/

namespace ClawMessenger.Ports.SchedulerStore

open Verified

/-! ## Times -/

abbrev Time := Int

abbrev Duration := Int

abbrev Uuid := Nat

def second : Duration := 1000000000

/-- What a `timestamptz` keeps of a time. -/
def timestamptz (t : Time) : Time := t - t % 1000

/-- `make_interval(secs => …)` of a stale timeout. -/
def staleSecs (staleTimeout : Duration) : Int :=
  let secs := Int.tdiv staleTimeout second
  if secs ≤ 0 then 1 else secs

def staleAfter (dbTime : Time) (staleTimeout : Duration) : Time :=
  dbTime + staleSecs staleTimeout * second

/-! ## Jobs -/

inductive CatchUpMode where
  | latestOnly
  | everyPlan
  | unknown (mode : Int)
deriving DecidableEq, Repr

structure Scope where
  kind : String
  id : String
deriving DecidableEq, Repr

def scopeGlobal : Scope := ⟨"global", "global"⟩

inductive Status where
  | running
  | success
  | failed
deriving DecidableEq, Repr

structure LatestPlanInfo where
  found : Bool := false
  planTime : Time := 0
  status : Status := .running
  attempt : Int := 0
  maxAttempts : Int := 0
  /-- The zero time when it is NULL. -/
  nextRetryAt : Time := 0

structure JobSpec where
  name : String
  cadence : Duration
  scheduleDelay : Duration
  catchUpMode : CatchUpMode
  catchUpWindow : Duration
  maxPlansPerTick : Int
  runTimeout : Duration
  staleTimeout : Duration
  heartbeatInterval : Duration
  allowStaleReentry : Bool
  maxAttempts : Int
  retryBackoff : List Duration
  plansForScope : Option (Scope → Time → LatestPlanInfo → Except String (List Time))

/-- `retryDelay`. -/
def JobSpec.retryDelay (job : JobSpec) (attempt : Int) : Duration :=
  if job.retryBackoff.isEmpty then 0
  else job.retryBackoff.getD (min (attempt - 1).toNat (job.retryBackoff.length - 1)) 0

/-! ## Rows -/

structure PlanKey where
  jobName : String
  scope : Scope
  planTime : Time
deriving DecidableEq, Repr

structure Execution where
  id : Uuid
  jobName : String
  scope : Scope
  planTime : Time
  status : Status
  attempt : Int
  maxAttempts : Int
  nextRetryAt : Option Time
  runnerId : String
  leaseToken : Uuid
  heartbeatAt : Time
  staleAfter : Time
  startedAt : Time
  finishedAt : Option Time
  durationMs : Option Int
  rowsAffected : Option Int
  result : String
  errorCode : Option String
  errorMsg : Option (List UInt8)
  updatedAt : Time
deriving DecidableEq

/-- The columns of `uq_sys_cron_execution`. -/
def Execution.key (row : Execution) : PlanKey := ⟨row.jobName, row.scope, row.planTime⟩

def planKey (job : JobSpec) (scope : Scope) (planTime : Time) : PlanKey :=
  ⟨job.name, scope, timestamptz planTime⟩

abbrev Table := List Execution

/-! ## Claiming -/

structure Claim where
  id : Uuid := 0
  leaseToken : Uuid := 0
  attempt : Int := 0
  won : Bool := false
  stole : Bool := false
  conflicted : Bool := false
deriving DecidableEq, Repr

/-- The answer of a statement. -/
inductive Reply where
  | claimed (claim : Claim)
  /-- `pgx.ErrNoRows`. -/
  | noRows
  | affected (rows : Nat)
  | ok
  /-- `ErrLeaseLost`. -/
  | leaseLost
  /-- Any other error. -/
  | refused
deriving DecidableEq, Repr

/-- What the insertion of `tryClaim` writes. -/
def freshExecution (job : JobSpec) (scope : Scope) (planTime dbTime : Time) (runnerId : String)
    (id leaseToken : Uuid) : Execution :=
  { id := id
    jobName := job.name
    scope := scope
    planTime := timestamptz planTime
    status := .running
    attempt := 1
    maxAttempts := job.maxAttempts
    nextRetryAt := none
    runnerId := runnerId
    leaseToken := leaseToken
    heartbeatAt := timestamptz dbTime
    staleAfter := staleAfter (timestamptz dbTime) job.staleTimeout
    startedAt := timestamptz dbTime
    finishedAt := none
    durationMs := none
    rowsAffected := none
    result := "\x7b\x7d"
    errorCode := none
    errorMsg := none
    updatedAt := timestamptz dbTime }

/-- The insertion of `tryClaim`.  `chk_sys_cron_attempt` is checked first, then
the plan key, then the primary key. -/
def claimInsert (rows : Table) (job : JobSpec) (scope : Scope) (planTime dbTime : Time)
    (runnerId : String) (id leaseToken : Uuid) : Reply × Table :=
  if job.maxAttempts < 1 then (.refused, rows)
  else if rows.any fun row => row.key == planKey job scope planTime then (.noRows, rows)
  else if rows.any fun row => row.id == id then (.refused, rows)
  else
    (.claimed { id := id, leaseToken := leaseToken, attempt := 1, won := true },
      rows ++ [freshExecution job scope planTime dbTime runnerId id leaseToken])

/-- The condition of the update of `tryClaim`. -/
def claimable (job : JobSpec) (scope : Scope) (planTime dbTime : Time) (row : Execution) : Bool :=
  let dbTime := timestamptz dbTime
  row.key == planKey job scope planTime && decide (row.attempt < row.maxAttempts)
    && ((row.status == .failed && decide (row.nextRetryAt.getD dbTime ≤ dbTime))
      || (row.status == .running && decide (row.staleAfter < dbTime) && job.allowStaleReentry))

def stolen (job : JobSpec) (dbTime : Time) (runnerId : String) (leaseToken : Uuid)
    (row : Execution) : Execution :=
  { row with
    status := .running
    attempt := row.attempt + 1
    runnerId := runnerId
    leaseToken := leaseToken
    heartbeatAt := timestamptz dbTime
    staleAfter := staleAfter (timestamptz dbTime) job.staleTimeout
    startedAt := timestamptz dbTime
    finishedAt := none
    durationMs := none
    nextRetryAt := none
    errorCode := none
    errorMsg := none
    updatedAt := timestamptz dbTime }

/-- The update of `tryClaim`, where the insertion has met a row. -/
def claimSteal (rows : Table) (job : JobSpec) (scope : Scope) (planTime dbTime : Time)
    (runnerId : String) (leaseToken : Uuid) : Reply × Table :=
  match rows.find? (claimable job scope planTime dbTime) with
  | none => (.claimed { conflicted := true }, rows)
  | some row =>
    (.claimed { id := row.id, leaseToken := leaseToken, attempt := row.attempt + 1, stole := true },
      Rows.update rows (claimable job scope planTime dbTime)
        (stolen job dbTime runnerId leaseToken))

/-! ## Sweeping and renewing -/

def stale (jobName : String) (dbTime : Time) (row : Execution) : Bool :=
  row.jobName == jobName && row.status == .running && decide (row.staleAfter < timestamptz dbTime)

def staleFailed (dbTime : Time) (row : Execution) : Execution :=
  { row with
    status := .failed
    finishedAt := some (timestamptz dbTime)
    errorCode := some "stale_timeout"
    errorMsg := some "lease expired without heartbeat".toUTF8.toList
    updatedAt := timestamptz dbTime }

def markStaleAsFailed (rows : Table) (jobName : String) (dbTime : Time) : Reply × Table :=
  (.affected (rows.countP (stale jobName dbTime)),
    Rows.update rows (stale jobName dbTime) (staleFailed dbTime))

/-- `id = $1 AND lease_token = $2 AND status = 'RUNNING'`. -/
def holds (id leaseToken : Uuid) (row : Execution) : Bool :=
  row.id == id && row.leaseToken == leaseToken && row.status == .running

/-- An update of the row whose lease one has. -/
def updateHeld (rows : Table) (id leaseToken : Uuid) (f : Execution → Execution) : Reply × Table :=
  (if rows.any (holds id leaseToken) then .ok else .leaseLost,
    Rows.update rows (holds id leaseToken) f)

/-- `now` is what the database calls `now()`. -/
def renewed (now : Time) (staleTimeout : Duration) (row : Execution) : Execution :=
  { row with
    heartbeatAt := timestamptz now
    staleAfter := staleAfter (timestamptz now) staleTimeout
    updatedAt := timestamptz now }

def heartbeat (rows : Table) (id leaseToken : Uuid) (staleTimeout : Duration) (now : Time) :
    Reply × Table :=
  updateHeld rows id leaseToken (renewed now staleTimeout)

/-! ## Terminal writes -/

/-- The result of a handler; `json.Marshal` gives a text or fails, and is not
asked for an empty one. -/
structure HandlerResult where
  rowsAffected : Int
  result : Option (Except Unit String)

def encodeResult : Option (Except Unit String) → Except Unit String
  | none => .ok "\x7b\x7d"
  | some (.error ()) => .error ()
  | some (.ok text) => if 16 * 1024 < text.utf8ByteSize then .error () else .ok text

def succeeded (dbTime : Time) (durationMs : Int) (rowsAffected : Int) (result : String)
    (row : Execution) : Execution :=
  { row with
    status := .success
    finishedAt := some (timestamptz dbTime)
    durationMs := some durationMs
    rowsAffected := some rowsAffected
    result := result
    errorCode := none
    errorMsg := none
    updatedAt := timestamptz dbTime }

def finishSuccess (rows : Table) (id leaseToken : Uuid) (dbTime : Time) (durationMs : Int)
    (res : HandlerResult) : Reply × Table :=
  match encodeResult res.result with
  | .error _ => (.refused, rows)
  | .ok result =>
    updateHeld rows id leaseToken (succeeded dbTime durationMs res.rowsAffected result)

def failed (dbTime : Time) (durationMs : Int) (errorCode : String) (errorMsg : List UInt8)
    (nextRetryAt : Option Time) (row : Execution) : Execution :=
  { row with
    status := .failed
    finishedAt := some (timestamptz dbTime)
    durationMs := some durationMs
    nextRetryAt := nextRetryAt
    errorCode := some errorCode
    errorMsg := some errorMsg
    updatedAt := timestamptz dbTime }

/-- The zero time as `nextRetryAt` stands for no retry. -/
def finishFailure (rows : Table) (id leaseToken : Uuid) (dbTime : Time) (durationMs : Int)
    (errorCode : String) (errorMsg : List UInt8) (nextRetryAt : Time) : Reply × Table :=
  let nextRetry := if nextRetryAt = 0 then none else some (timestamptz nextRetryAt)
  updateHeld rows id leaseToken
    (failed dbTime durationMs (if errorCode = "" then "handler_error" else errorCode)
      (errorMsg.take 4000) nextRetry)

/-! ## Planning -/

/-- Due for another attempt at the same plan time. -/
def LatestPlanInfo.retryEligible (info : LatestPlanInfo) (now : Time) : Bool :=
  if !info.found then false
  else if info.status ≠ .failed then false
  else if info.maxAttempts ≤ info.attempt then false
  else if info.nextRetryAt = 0 then true
  else !decide (now < info.nextRetryAt)

/-- The row of a scope with the greatest plan time. -/
def latestRow (rows : Table) (jobName : String) (scope : Scope) : Option Execution :=
  rows.foldl (fun best row =>
    if row.jobName = jobName ∧ row.scope = scope ∧ best.all (fun b => decide (b.planTime < row.planTime))
    then some row else best) none

def latestPlan (rows : Table) (jobName : String) (scope : Scope) : LatestPlanInfo :=
  match latestRow rows jobName scope with
  | none => {}
  | some row =>
    { found := true
      planTime := row.planTime
      status := row.status
      attempt := row.attempt
      maxAttempts := row.maxAttempts
      nextRetryAt := row.nextRetryAt.getD 0 }

/-! ## Runs of statements -/

inductive Statement where
  | claimInsert (job : JobSpec) (scope : Scope) (planTime dbTime : Time) (runnerId : String)
      (id leaseToken : Uuid)
  | claimSteal (job : JobSpec) (scope : Scope) (planTime dbTime : Time) (runnerId : String)
      (leaseToken : Uuid)
  | markStaleAsFailed (jobName : String) (dbTime : Time)
  | heartbeat (id leaseToken : Uuid) (staleTimeout : Duration) (now : Time)
  | finishSuccess (id leaseToken : Uuid) (dbTime : Time) (durationMs : Int) (res : HandlerResult)
  | finishFailure (id leaseToken : Uuid) (dbTime : Time) (durationMs : Int) (errorCode : String)
      (errorMsg : List UInt8) (nextRetryAt : Time)

def execute (rows : Table) : Statement → Reply × Table
  | .claimInsert job scope planTime dbTime runnerId id leaseToken =>
    claimInsert rows job scope planTime dbTime runnerId id leaseToken
  | .claimSteal job scope planTime dbTime runnerId leaseToken =>
    claimSteal rows job scope planTime dbTime runnerId leaseToken
  | .markStaleAsFailed jobName dbTime => markStaleAsFailed rows jobName dbTime
  | .heartbeat id leaseToken staleTimeout now => heartbeat rows id leaseToken staleTimeout now
  | .finishSuccess id leaseToken dbTime durationMs res =>
    finishSuccess rows id leaseToken dbTime durationMs res
  | .finishFailure id leaseToken dbTime durationMs errorCode errorMsg nextRetryAt =>
    finishFailure rows id leaseToken dbTime durationMs errorCode errorMsg nextRetryAt

abbrev Run := Config Table Statement Reply

end ClawMessenger.Ports.SchedulerStore
