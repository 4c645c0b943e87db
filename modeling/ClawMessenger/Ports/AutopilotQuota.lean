import ClawMessenger.Verified.Machine
import ClawMessenger.Verified.Rows

/-!
# The quota of autopilot runs

`server/internal/service/autopilot_quota.go`, the statements of
`server/pkg/db/queries/autopilot_quota.sql` and the run statements of
`autopilot.sql` that settle a reservation.  A workspace has a row for each
billing period with two counters, and a reservation for each admitted run;
settling one moves a unit from the reserved to the used count or drops it.

A statement is atomic.  An admission is a transaction: it locks its period row
first, reads what is committed by others statement by statement, and its own
writes show when it commits.  Until then a statement that would change the
locked row waits.
-/

namespace ClawMessenger.Ports.AutopilotQuota

open Verified

/-! ## The policy -/

inductive Action
  | off
  | observe
  | enforce
  | unknown (text : String)
  deriving DecidableEq, Repr

/-- What the entitlement service says of a workspace. -/
structure Gate where
  action : Action
  limit : Option Int
  periodStart : Option Nat
  periodEnd : Option Nat
  resetAt : Option Nat

structure Policy where
  action : Action
  limit : Int
  periodStart : Nat
  periodEnd : Nat

/-- A malformed gate is no policy. -/
def quotaPolicy (gate : Gate) : Option Policy :=
  match gate.limit, gate.periodStart, gate.periodEnd, gate.resetAt with
  | some limit, some periodStart, some periodEnd, some _ =>
    if (gate.action = .observe ∨ gate.action = .enforce) ∧ 0 ≤ limit ∧ periodStart < periodEnd then
      some ⟨gate.action, limit, periodStart, periodEnd⟩
    else none
  | _, _, _, _ => none

def validAutopilotExecutionSource (source : String) : Bool :=
  source ∈ ["schedule", "manual", "webhook", "api"]

/-! ## Tables -/

structure PeriodId where
  workspaceId : String
  periodStart : Nat
  periodEnd : Nat
  deriving DecidableEq, Repr

/-- `autopilot_quota_period` -/
structure Period where
  usedCount : Int
  reservedCount : Int
  blockedCounts : String → Nat

inductive ReservationState
  | reserved
  | consumed
  | released
  deriving DecidableEq, Repr

/-- `autopilot_quota_reservation` -/
structure Reservation where
  id : Nat
  period : PeriodId
  source : String
  idempotencyKey : String
  state : ReservationState
  createdAt : Nat

inductive RunStatus
  | pending
  | issueCreated
  | running
  | completed
  | failed
  | skipped
  deriving DecidableEq, Repr

/-- `autopilot_run` -/
structure Run where
  id : Nat
  source : String
  status : RunStatus
  issueId : Option Nat
  taskId : Option Nat
  quotaReservationId : Option Nat

/-- The committed tables; `tasks` are the runs that rows of `agent_task_queue` name. -/
structure Db where
  periods : PeriodId → Option Period
  reservations : List Reservation
  runs : List Run
  tasks : List Nat

def Db.empty : Db := ⟨fun _ => none, [], [], []⟩

/-! ## Statements -/

inductive Statement
  /-- `ConsumeAutopilotQuotaReservation` -/
  | consume (reservationId : Nat)
  /-- `ReleaseAutopilotQuotaReservation` -/
  | release (reservationId : Nat)
  /-- `UpdateAutopilotRunTerminalWithQuota` -/
  | terminal (runId : Nat) (status : RunStatus) (charged : Bool)
  /-- `RecoverPartialAutopilotRun` -/
  | recoverPartial (runId : Nat)
  /-- `FailAutopilotRunsByIssue` -/
  | failByIssue (issueId : Nat)
  /-- `UpdateAutopilotRunIssueCreated`, and the consumption in its transaction -/
  | issueCreated (runId issueId : Nat)
  /-- `UpdateAutopilotRunRunning` -/
  | running (runId taskId : Nat)
  /-- a run without a reservation -/
  | createRun (run : Run)
  | createTask (runId : Nat)
  /-- a run that is removed by hand -/
  | removeRun (runId : Nat)

def completeAutopilotRun (runId : Nat) : Statement := .terminal runId .completed true

def failAutopilotRun (runId : Nat) : Statement := .terminal runId .failed false

def skipAutopilotRun (runId : Nat) : Statement := .terminal runId .skipped false

/-- `settleAutopilotQuota` -/
def settleAutopilotQuota (reservationId : Nat) (consume : Bool) : Statement :=
  if consume then .consume reservationId else .release reservationId

/-- Neither an issue nor a task came of the run. -/
def Run.partialRun (run : Run) : Bool :=
  run.status = .pending || (run.status = .issueCreated && run.issueId.isNone) ||
    (run.status = .running && run.taskId.isNone)

/-- The runs that the statement updates. -/
def Statement.updates (db : Db) : Statement → Run → Bool
  | .terminal runId _ _, run => run.id = runId
  | .recoverPartial runId, run => run.id = runId && run.partialRun && !db.tasks.contains run.id
  | .failByIssue issueId, run =>
    run.issueId = some issueId && (run.status = .issueCreated || run.status = .running)
  | .issueCreated runId _, run => run.id = runId
  | .running runId _, run => run.id = runId
  | _, _ => false

/-- What it makes of such a run. -/
def Statement.updated : Statement → Run → Run
  | .terminal _ status _, run => { run with status := status }
  | .recoverPartial _, run => { run with status := .failed }
  | .failByIssue _, run => { run with status := .failed }
  | .issueCreated _ issueId, run => { run with status := .issueCreated, issueId := some issueId }
  | .running _ taskId, run => { run with status := .running, taskId := some taskId }
  | _, run => run

/-- The reservations that the statement finalizes where they are still reserved. -/
def Statement.selects (db : Db) : Statement → Reservation → Bool
  | .consume reservationId, r => r.id = reservationId
  | .release reservationId, r => r.id = reservationId
  | .running _ _, _ => false
  | st, r => db.runs.any fun run => st.updates db run && run.quotaReservationId = some r.id

def Statement.consumes : Statement → Bool
  | .consume _ | .issueCreated _ _ => true
  | .terminal _ _ charged => charged
  | _ => false

/-- The reservation is selected, still reserved, and its period is there. -/
def Db.changes (db : Db) (st : Statement) (r : Reservation) : Bool :=
  r.state = .reserved && st.selects db r && (db.periods r.period).isSome

/-- How many units a statement takes from the reserved count of a period: one,
if a row came back for it, or in `FailAutopilotRunsByIssue` one for each row. -/
def Db.amount (db : Db) (st : Statement) (p : PeriodId) : Int :=
  let changed := db.reservations.filter fun r => db.changes st r && r.period = p
  match st with
  | .failByIssue _ => changed.length
  | _ => if changed = [] then 0 else 1

def Period.settle (row : Period) (amount : Int) (consume : Bool) : Period :=
  { row with
    reservedCount := row.reservedCount - amount
    usedCount := if consume then row.usedCount + amount else row.usedCount }

def Reservation.finalize (r : Reservation) (consume : Bool) : Reservation :=
  { r with state := if consume then .consumed else .released }

/-- The run table after a statement. -/
def Db.runsAfter (db : Db) (st : Statement) : List Run :=
  match st with
  | .createRun run => db.runs ++ [{ run with quotaReservationId := none }]
  | .removeRun runId => db.runs.filter fun run => run.id ≠ runId
  | st => Rows.update db.runs (st.updates db) st.updated

def Db.exec (db : Db) (st : Statement) : Db where
  periods := fun p => (db.periods p).map fun row => row.settle (db.amount st p) st.consumes
  reservations := Rows.update db.reservations (db.changes st) fun r => r.finalize st.consumes
  runs := db.runsAfter st
  tasks := match st with
    | .createTask runId => runId :: db.tasks
    | _ => db.tasks

/-! ## Admissions -/

/-- What a call of `createAutopilotRunWithQuota` is about. -/
structure Request where
  workspaceId : String
  gate : Gate
  source : String
  idempotencyKey : String
  run : Run

inductive Phase
  /-- the period row is locked, `GetAutopilotQuotaReservationByKey` is next -/
  | locked
  /-- `GetAutopilotRunByQuotaReservation` is next -/
  | found (existing : Reservation)
  /-- the orphan is released next -/
  | orphan (existing : Reservation)
  /-- the limit is looked at next -/
  | deciding (released : Option Nat)

/-- An open transaction: its copy of the counters and how far it is. -/
structure Admission where
  policy : Policy
  period : PeriodId
  source : String
  idempotencyKey : String
  run : Run
  usedCount : Int
  reservedCount : Int
  phase : Phase

/-- `EnsureAutopilotQuotaPeriod` -/
def Db.ensure (db : Db) (p : PeriodId) : Db :=
  { db with
    periods := Function.update db.periods p (some ((db.periods p).getD ⟨0, 0, fun _ => 0⟩)) }

/-- `GetAutopilotQuotaReservationByKey` -/
def Db.byKey (db : Db) (p : PeriodId) (key : String) : Option Reservation :=
  db.reservations.find? fun r => r.period = p && r.idempotencyKey = key && r.state ≠ .released

/-- `GetAutopilotRunByQuotaReservation` -/
def Db.runOf (db : Db) (reservationId : Nat) : Option Run :=
  db.runs.find? fun run => run.quotaReservationId = some reservationId

def Db.modifyPeriod (db : Db) (p : PeriodId) (f : Period → Period) : Db :=
  { db with periods := Function.update db.periods p ((db.periods p).map f) }

/-- `IncrementAutopilotQuotaBlocked` -/
def Db.incrementBlocked (db : Db) (p : PeriodId) (source : String) : Db :=
  db.modifyPeriod p fun row =>
    { row with blockedCounts := Function.update row.blockedCounts source (row.blockedCounts source + 1) }

/-- `IncrementAutopilotQuotaReserved` -/
def Db.incrementReserved (db : Db) (p : PeriodId) : Db :=
  db.modifyPeriod p fun row => { row with reservedCount := row.reservedCount + 1 }

/-- `CreateAutopilotQuotaReservation`; nothing where the unique index forbids it. -/
def Db.insertReservation (db : Db) (r : Reservation) : Option Db :=
  match db.byKey r.period r.idempotencyKey with
  | some _ => none
  | none => some { db with reservations := db.reservations ++ [r] }

def Db.insertRun (db : Db) (run : Run) : Db := { db with runs := db.runs ++ [run] }

/-- The transaction up to the limit, as others see it when it commits. -/
def Db.prepared (db : Db) (p : PeriodId) (released : Option Nat) : Db :=
  match released with
  | none => db.ensure p
  | some reservationId => (db.ensure p).exec (settleAutopilotQuota reservationId false)

/-- The rest of an admission from the limit on, and its commit; nothing is
committed where an insertion fails. -/
def Admission.commit (a : Admission) (db : Db) (released : Option Nat) (reservationId runId now : Nat) :
    Db :=
  let prepared := db.prepared a.period released
  if a.policy.limit ≤ a.usedCount + a.reservedCount ∧ a.policy.action = .enforce then
    prepared.incrementBlocked a.period a.source
  else
    match prepared.insertReservation ⟨reservationId, a.period, a.source, a.idempotencyKey, .reserved, now⟩ with
    | none => db
    | some reserved => (reserved.incrementReserved a.period).insertRun
        { a.run with id := runId, quotaReservationId := some reservationId }

/-! ## Reconciliation -/

/-- `ListRecoverableAutopilotQuotaReservations` -/
def Db.recoverable (db : Db) (terminalBefore partialBefore : Nat) (r : Reservation) : Bool :=
  r.state = .reserved &&
    ((r.createdAt < terminalBefore &&
        (db.runOf r.id).all fun run =>
          run.status = .completed || run.status = .failed || run.status = .skipped) ||
      (r.createdAt < partialBefore &&
        (db.runOf r.id).any fun run =>
          (run.source = "manual" || run.source = "api") && run.partialRun &&
            !db.tasks.contains run.id))

def Db.listRecoverable (db : Db) (terminalBefore partialBefore limit : Nat) : List Reservation :=
  ((db.reservations.filter (db.recoverable terminalBefore partialBefore)).insertionSort
    fun r r' => r.createdAt ≤ r'.createdAt).take limit

/-- What a pass of `ReconcileAutopilotQuotaReservations` does about a
reservation, with the run it has read. -/
def reconcileOne (r : Reservation) (run : Option Run) : Option Statement :=
  match run with
  | none => some (settleAutopilotQuota r.id false)
  | some run =>
    if run.status = .completed then some (settleAutopilotQuota r.id true)
    else if run.status = .failed ∨ run.status = .skipped then some (settleAutopilotQuota r.id false)
    else if (run.source = "manual" ∨ run.source = "api") ∧ run.issueId = none ∧ run.taskId = none ∧
        (run.status = .pending ∨ run.status = .issueCreated ∨ run.status = .running) then
      some (.recoverPartial run.id)
    else none

structure Pass where
  todo : List Reservation
  next : Option Statement

/-! ## Steps -/

structure State where
  db : Db
  admissions : Nat → Option Admission
  passes : Nat → Option Pass

def State.start : State := ⟨Db.empty, fun _ => none, fun _ => none⟩

inductive Event
  | exec (st : Statement)
  | admission (n : Nat) (request : Request)
  /-- the next read of an admission, or its release of an orphan -/
  | proceed (n : Nat)
  | commit (n reservationId runId now : Nat)
  | abort (n : Nat)
  | reconcile (n terminalBefore partialBefore limit : Nat)
  /-- the next read or the next statement of a pass -/
  | pass (n : Nat)

def Request.period (request : Request) (policy : Policy) : PeriodId :=
  ⟨request.workspaceId, policy.periodStart, policy.periodEnd⟩

/-- The first statement of an admission. -/
def Request.open (request : Request) (policy : Policy) (db : Db) : Admission :=
  let row := (db.periods (request.period policy)).getD ⟨0, 0, fun _ => 0⟩
  ⟨policy, request.period policy, request.source, request.idempotencyKey, request.run,
    row.usedCount, row.reservedCount, .locked⟩

def State.setAdmission (s : State) (n : Nat) (a : Option Admission) : State :=
  { s with admissions := Function.update s.admissions n a }

def State.setPass (s : State) (n : Nat) (pass : Option Pass) : State :=
  { s with passes := Function.update s.passes n pass }

def State.proceed (s : State) (n : Nat) (a : Admission) : State :=
  match a.phase with
  | .locked =>
    match s.db.byKey a.period a.idempotencyKey with
    | none => s.setAdmission n (some { a with phase := .deciding none })
    | some existing => s.setAdmission n (some { a with phase := .found existing })
  | .found existing =>
    match s.db.runOf existing.id with
    | some _ => ({ s with db := s.db.ensure a.period }).setAdmission n none
    | none =>
      if existing.state = .reserved then s.setAdmission n (some { a with phase := .orphan existing })
      else s.setAdmission n none
  | .orphan existing =>
    s.setAdmission n (some { a with
      reservedCount := a.reservedCount - 1
      phase := .deciding (some existing.id) })
  | .deciding _ => s

def State.step (s : State) : Event → Unit × State
  | .exec st => ((), { s with db := s.db.exec st })
  | .admission n request =>
    if validAutopilotExecutionSource request.source then
      match quotaPolicy request.gate with
      | none => ((), { s with db := s.db.exec (.createRun request.run) })
      | some policy => ((), s.setAdmission n (some (request.open policy s.db)))
    else ((), s)
  | .proceed n =>
    match s.admissions n with
    | none => ((), s)
    | some a => ((), s.proceed n a)
  | .commit n reservationId runId now =>
    match s.admissions n with
    | none => ((), s)
    | some a =>
      match a.phase with
      | .deciding released =>
        ((), ({ s with db := a.commit s.db released reservationId runId now }).setAdmission n none)
      | _ => ((), s)
  | .abort n => ((), s.setAdmission n none)
  | .reconcile n terminalBefore partialBefore limit =>
    ((), s.setPass n (some ⟨s.db.listRecoverable terminalBefore partialBefore limit, none⟩))
  | .pass n =>
    match s.passes n with
    | none => ((), s)
    | some ⟨todo, some st⟩ => ((), ({ s with db := s.db.exec st }).setPass n (some ⟨todo, none⟩))
    | some ⟨[], none⟩ => ((), s.setPass n none)
    | some ⟨r :: todo, none⟩ =>
      ((), s.setPass n (some ⟨todo, reconcileOne r (s.db.runOf r.id)⟩))

end ClawMessenger.Ports.AutopilotQuota
