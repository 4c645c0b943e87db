import Mathlib

/-!
# Requests for the skills of a runtime

`server/internal/handler/runtime_local_skills.go`.  A client asks what skills a
runtime has (a list request) or for one of them (an import request); the daemon
of the runtime takes the request and reports on it.  The two kinds differ in
what they carry, in the reports there are and in what their encoding keeps: the
start of a running request is in no JSON of a request, and only the import
store has an envelope that adds it.
-/

namespace ClawMessenger.Ports.LocalSkill

/-! ## The status -/

inductive Status
  | pending
  | running
  | completed
  | failed
  | timeout
  | conflict
  deriving DecidableEq, Repr

/-- `runtimeLocalSkillRequestTerminal` -/
def Status.terminal : Status → Bool
  | .completed | .failed | .timeout | .conflict => true
  | .pending | .running => false

/-! ## Requests -/

/-- What both kinds have, with times in nanoseconds; `body` is the rest. -/
structure Request (β : Type) where
  id : String
  runtimeId : String
  status : Status
  error : String
  createdAt : Nat
  updatedAt : Nat
  runStartedAt : Option Nat
  body : β

/-- `runtimeLocalSkillPendingTimeout`, three minutes. -/
def pendingTimeout : Nat := 180000000000

/-- `runtimeLocalSkillRunningTimeout`, sixty seconds. -/
def runningTimeout : Nat := 60000000000

/-- `runtimeLocalSkillStoreRetention`, five minutes. -/
def storeRetention : Nat := 300000000000

def pendingError : String := "daemon did not respond within 3 minutes"

def runningError : String := "daemon did not finish within 60 seconds"

section Timeouts

variable {β : Type} (req : Request β) (now : Nat)

/-- The request is pending or running, and has been for too long. -/
def Request.overdue : Bool :=
  match req.status with
  | .pending => decide (pendingTimeout < now - req.createdAt)
  | .running => req.runStartedAt.any fun started => decide (runningTimeout < now - started)
  | _ => false

def Request.timedOut : Request β where
  id := req.id
  runtimeId := req.runtimeId
  status := .timeout
  error := if req.status = .pending then pendingError else runningError
  createdAt := req.createdAt
  updatedAt := now
  runStartedAt := req.runStartedAt
  body := req.body

/-- `applyLocalSkillListTimeout` and `applyLocalSkillImportTimeout`; nothing
where the request is left as it is. -/
def applyTimeout : Option (Request β) := if req.overdue now then some (req.timedOut now) else none

/-- The request after its timeout was applied. -/
def Request.aged : Request β := (applyTimeout req now).getD req

/-- A request as it is created. -/
def Request.new {β : Type} (id runtimeId : String) (body : β) (now : Nat) : Request β where
  id := id
  runtimeId := runtimeId
  status := .pending
  error := ""
  createdAt := now
  updatedAt := now
  runStartedAt := none
  body := body

def Request.started : Request β :=
  { req with status := .running, runStartedAt := some now, updatedAt := now }

variable {req now}

theorem Request.aged_of_overdue (h : req.overdue now = true) :
    req.aged now = req.timedOut now := by
  rw [aged, applyTimeout, if_pos h, Option.getD_some]

theorem Request.aged_of_inTime (h : req.overdue now = false) : req.aged now = req := by
  rw [aged, applyTimeout, if_neg (by simp [h]), Option.getD_none]

theorem applyTimeout_eq_none_iff : applyTimeout req now = none ↔ req.overdue now = false := by
  rw [applyTimeout]
  split
  · rename_i h
    simp [h]
  · rename_i h
    simpa using h

/-- A timeout is applied once. -/
theorem Request.aged_inTime (req : Request β) (now : Nat) : (req.aged now).overdue now = false := by
  cases h : req.overdue now with
  | true =>
    rw [aged_of_overdue h]
    rfl
  | false =>
    rw [aged_of_inTime h]
    exact h

@[simp] theorem Request.aged_id : (req.aged now).id = req.id := by
  unfold aged applyTimeout
  split <;> rfl

@[simp] theorem Request.aged_runtimeId : (req.aged now).runtimeId = req.runtimeId := by
  unfold aged applyTimeout
  split <;> rfl

@[simp] theorem Request.aged_createdAt : (req.aged now).createdAt = req.createdAt := by
  unfold aged applyTimeout
  split <;> rfl

@[simp] theorem Request.aged_runStartedAt : (req.aged now).runStartedAt = req.runStartedAt := by
  unfold aged applyTimeout
  split <;> rfl

@[simp] theorem Request.aged_body : (req.aged now).body = req.body := by
  unfold aged applyTimeout
  split <;> rfl

/-- Only what is pending or running can be overdue. -/
theorem Request.open_of_overdue (h : req.overdue now = true) :
    req.status = .pending ∨ req.status = .running := by
  unfold overdue at h
  split at h
  · rename_i hstatus
    exact .inl hstatus
  · rename_i hstatus
    exact .inr hstatus
  · cases h

theorem Request.overdue_of_pending (h : req.status = .pending) :
    req.overdue now = decide (pendingTimeout < now - req.createdAt) := by
  rw [overdue, h]

theorem Request.overdue_of_running (h : req.status = .running) :
    req.overdue now = req.runStartedAt.any fun started => decide (runningTimeout < now - started) := by
  rw [overdue, h]

theorem Request.aged_pending_iff :
    (req.aged now).status = .pending ↔ req.status = .pending ∧ req.overdue now = false := by
  cases h : req.overdue now with
  | true =>
    rw [aged_of_overdue h]
    simp [timedOut]
  | false =>
    rw [aged_of_inTime h]
    simp

end Timeouts

/-! ## Reports -/

/-- What a report writes into a request; an error only where it brings one. -/
structure Settlement (β : Type) where
  status : Status
  error : Option String
  body : β → β

/-- The request as `Complete`, `Conflict` and `Fail` leave it. -/
def Request.settled {β : Type} (req : Request β) (report : Settlement β) (now : Nat) : Request β :=
  { req with
    status := report.status
    error := report.error.getD req.error
    body := report.body req.body
    updatedAt := now }

/-! ## The two kinds -/

/-- A kind of request: how it starts, its reports, its encoding, and what that
forgets. -/
structure Kind where
  Input : Type
  Body : Type
  initial : Input → Body
  Report : Type
  settlement : Report → Settlement Body
  Wire : Type
  marshal : Request Body → Wire
  unmarshal : Wire → Request Body
  keepsStart : Bool
  settlement_terminal : ∀ report, (settlement report).status.terminal = true
  reread : ∀ req, unmarshal (marshal req) =
    { req with runStartedAt := if keepsStart then req.runStartedAt else none }

section List

variable (Skill Server : Type)

/-- What only a `RuntimeLocalSkillListRequest` has. -/
structure ListBody where
  skills : List Skill
  supported : Bool
  mcpServers : List Server
  mcpSupported : Bool

inductive ListReport
  | complete (skills : List Skill) (supported : Bool) (mcpServers : List Server) (mcpSupported : Bool)
  | fail (errMsg : String)

/-- The fields of a list request that its JSON has. -/
structure ListJson where
  id : String
  runtimeId : String
  status : Status
  body : ListBody Skill Server
  error : String
  createdAt : Nat
  updatedAt : Nat

variable {Skill Server}

def ListReport.settlement : ListReport Skill Server → Settlement (ListBody Skill Server)
  | .complete skills supported mcpServers mcpSupported =>
    ⟨.completed, none, fun _ => ⟨skills, supported, mcpServers, mcpSupported⟩⟩
  | .fail errMsg => ⟨.failed, some errMsg, id⟩

def ListJson.marshal (req : Request (ListBody Skill Server)) : ListJson Skill Server :=
  ⟨req.id, req.runtimeId, req.status, req.body, req.error, req.createdAt, req.updatedAt⟩

def ListJson.unmarshal (json : ListJson Skill Server) : Request (ListBody Skill Server) where
  id := json.id
  runtimeId := json.runtimeId
  status := json.status
  error := json.error
  createdAt := json.createdAt
  updatedAt := json.updatedAt
  runStartedAt := none
  body := json.body

/-- List requests are stored as their JSON. -/
def listKind (Skill Server : Type) : Kind where
  Input := Unit
  Body := ListBody Skill Server
  initial := fun _ => ⟨[], true, [], false⟩
  Report := ListReport Skill Server
  settlement := ListReport.settlement
  Wire := ListJson Skill Server
  marshal := ListJson.marshal
  unmarshal := ListJson.unmarshal
  keepsStart := false
  settlement_terminal := by
    intro report
    cases report <;> rfl
  reread := fun _ => rfl

end List

section Import

variable (Skill : Type)

structure ImportConflict where
  existingSkillId : String
  existingCreatedBy : String
  canOverwrite : Bool

/-- `LocalSkillImportRequestInput` without the runtime and the creator. -/
structure ImportInput where
  skillKey : String
  name : Option String
  description : Option String
  action : String
  targetSkillId : String
  supportsConflict : Bool

/-- What only a `RuntimeLocalSkillImportRequest` has. -/
structure ImportBody where
  input : ImportInput
  creatorId : String
  skill : Option Skill
  conflict : Option ImportConflict

inductive ImportReport
  | complete (skill : Skill)
  | conflict (info : ImportConflict)
  | fail (errMsg : String)

/-- The fields of an import request that its JSON has. -/
structure ImportJson where
  id : String
  runtimeId : String
  input : ImportInput
  status : Status
  skill : Option Skill
  conflict : Option ImportConflict
  error : String
  createdAt : Nat
  updatedAt : Nat

/-- `redisImportEnvelope` -/
structure ImportEnvelope where
  request : ImportJson Skill
  creatorId : String
  runStartedAt : Option Nat

variable {Skill}

def ImportReport.settlement : ImportReport Skill → Settlement (ImportBody Skill)
  | .complete skill => ⟨.completed, none, fun body => { body with skill := some skill }⟩
  | .conflict info => ⟨.conflict, none, fun body => { body with conflict := some info }⟩
  | .fail errMsg => ⟨.failed, some errMsg, id⟩

/-- `marshalImport` -/
def ImportEnvelope.marshal (req : Request (ImportBody Skill)) : ImportEnvelope Skill where
  request := ⟨req.id, req.runtimeId, req.body.input, req.status, req.body.skill, req.body.conflict,
    req.error, req.createdAt, req.updatedAt⟩
  creatorId := req.body.creatorId
  runStartedAt := req.runStartedAt

/-- `unmarshalImport` -/
def ImportEnvelope.unmarshal (env : ImportEnvelope Skill) : Request (ImportBody Skill) where
  id := env.request.id
  runtimeId := env.request.runtimeId
  status := env.request.status
  error := env.request.error
  createdAt := env.request.createdAt
  updatedAt := env.request.updatedAt
  runStartedAt := env.runStartedAt
  body := ⟨env.request.input, env.creatorId, env.request.skill, env.request.conflict⟩

/-- Import requests are stored in an envelope. -/
def importKind (Skill : Type) : Kind where
  Input := ImportInput × String
  Body := ImportBody Skill
  initial := fun input => ⟨input.1, input.2, none, none⟩
  Report := ImportReport Skill
  settlement := ImportReport.settlement
  Wire := ImportEnvelope Skill
  marshal := ImportEnvelope.marshal
  unmarshal := ImportEnvelope.unmarshal
  keepsStart := true
  settlement_terminal := by
    intro report
    cases report <;> rfl
  reread := fun _ => rfl

end Import

/-! ## Scores -/

/-- `float64` of a non-negative integer: 53 significant digits, the nearest
value, and of two the even one. -/
def float64 (n : Nat) : Nat :=
  if n < 2 ^ 53 then n
  else
    let unit := 2 ^ (n.log2 - 52)
    let below := n / unit * unit
    if 2 * (n % unit) < unit ∨ (2 * (n % unit) = unit ∧ n / unit % 2 = 0) then below
    else below + unit

end ClawMessenger.Ports.LocalSkill
