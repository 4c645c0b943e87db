import ClawMessenger.Ports.LocalSkillRequest
import ClawMessenger.Verified.Machine
import ClawMessenger.Verified.SortedSet

/-!
# Local-skill requests in Redis, command by command

`server/internal/handler/runtime_local_skills_redis_store.go` and the report
handlers of `runtime_local_skills.go`.  Any number of nodes run the operations
of one store at the same time, and what is atomic is a single Redis command or
the claim script.  A call in flight is what it does next (`Pc`); its node reads
its own clock, so a step brings a reading that nothing else bounds.

A key is gone when its time is up, whenever that is, and a command or its reply
may be lost: `Create` cleans up after that, an error of a `ZREM` alone is ignored, and
otherwise the operations give up.
-/

namespace ClawMessenger.Ports.LocalSkill.Commands

open Verified

variable {K : Kind}

/-! ## Calls in flight -/

inductive Op (K : Kind)
  | create (id runtimeId : String) (input : K.Input)
  | get (id : String)
  | hasPending (runtimeId : String)
  | popPending (runtimeId : String)
  | popPendingBatch (runtimeId : String) (limit : Nat)
  /-- `Complete`, `Conflict` or `Fail` -/
  | settle (id : String) (report : K.Report)
  /-- `ReportLocalSkillListResult` or `ReportLocalSkillImportResult` -/
  | handle (id runtimeId : String) (report : K.Report)

/-- The id that the operation makes. -/
def Op.makes : Op K → Option String
  | .create id _ _ => some id
  | _ => none

/-- What a request is loaded for. -/
inductive Purpose (K : Kind)
  | get
  /-- with the turns of the loop that are left -/
  | pop (runtimeId : String) (turns : Nat)
  | batch (runtimeId : String) (rest : List String)
  /-- with the status that the report handler has seen, if one has called -/
  | settle (report : K.Report) (seen : Option Status)
  | handle (runtimeId : String) (report : K.Report)

/-- The next command of a call. -/
inductive Pc (K : Kind)
  /-- `ZADD`, `EXPIRE`, and after an error `DEL` and `ZREM`: `Create` -/
  | adding (req : Request K.Body)
  | renewing (req : Request K.Body)
  | deleting (req : Request K.Body)
  | removing (req : Request K.Body)
  /-- `ZCARD` -/
  | probing (runtimeId : String)
  /-- `ZRANGE` -/
  | ranging (runtimeId : String) (turns : Nat)
  | rangingBatch (runtimeId : String) (limit : Nat)
  /-- `GET`, and `SET` and `ZREM` where it finds a timeout: loading a request; with the
  status that was loaded -/
  | loading (id : String) (purpose : Purpose K)
  | timingOut (loaded : Status) (req : Request K.Body) (purpose : Purpose K)
  | unlisting (req : Request K.Body) (purpose : Purpose K)
  /-- `ZREM` of what is not pending any more -/
  | dropping (runtimeId id : String) (purpose : Purpose K)
  /-- `claimPendingScript` -/
  | claiming (runtimeId : String) (req : Request K.Body) (purpose : Purpose K)
  /-- `SET` of a report -/
  | settling (req : Request K.Body) (report : K.Report) (seen : Option Status)

structure State (K : Kind) where
  records : String → Option K.Wire
  pending : String → SortedSet Nat String
  calls : Nat → Option (Pc K)

def State.start (K : Kind) : State K := ⟨fun _ => none, fun _ => ∅, fun _ => none⟩

/-! ## What a step shows -/

/-- A record is written; the status it had, if there was one, and has. -/
structure Write where
  id : String
  before : Option Status
  after : Status

/-- `handed` is what a popper got, `answered` a status that a call returns or
acknowledges. -/
structure Effect where
  stored : Option Write
  handed : Option String
  answered : Option (String × Status)

def Effect.silent : Effect := ⟨none, none, none⟩

def Effect.answer (answered : Option (String × Status)) : Effect := ⟨none, none, answered⟩

/-! ## Commands -/

namespace State

variable (s : State K)

def status (id : String) : Option Status := (s.records id).map fun wire => (K.unmarshal wire).status

def put (req : Request K.Body) : State K :=
  { s with records := Function.update s.records req.id (some (K.marshal req)) }

def del (id : String) : State K := { s with records := Function.update s.records id none }

def zadd (runtimeId : String) (score : Nat) (id : String) : State K :=
  { s with pending := Function.update s.pending runtimeId ((s.pending runtimeId).add score id) }

def zrem (runtimeId id : String) : State K :=
  { s with pending := Function.update s.pending runtimeId ((s.pending runtimeId).remove id) }

def write (req : Request K.Body) : Write := ⟨req.id, s.status req.id, req.status⟩

/-- `ZRANGE` from the first to the one before the limit; `-1` is the last. -/
def rangeOf (runtimeId : String) (limit : Nat) : List String :=
  if limit = 0 then (s.pending runtimeId).members else (s.pending runtimeId).members.take limit

end State

/-- Where a popper goes on when it did not get the request. -/
def Purpose.next : Purpose K → Option (Pc K)
  | .pop runtimeId (turns + 1) => some (.ranging runtimeId turns)
  | .batch runtimeId (id :: rest) => some (.loading id (.batch runtimeId rest))
  | _ => none

/-- Where a popper goes on when it got the request. -/
def Purpose.claimed : Purpose K → Option (Pc K)
  | .pop _ _ => none
  | purpose => purpose.next

/-- What a call does with the request it has loaded: what it answers, if it is
at its end, and where it goes on otherwise. -/
def Purpose.loaded (purpose : Purpose K) (id : String) (req : Option (Request K.Body)) :
    Option (String × Status) × Option (Pc K) :=
  match purpose, req with
  | .get, none => (none, none)
  | .get, some req => (some (id, req.status), none)
  | .pop runtimeId turns, none => (none, some (.dropping runtimeId id (.pop runtimeId turns)))
  | .pop runtimeId turns, some req =>
    if req.status = .pending then (none, some (.claiming runtimeId req (.pop runtimeId turns)))
    else (none, some (.dropping runtimeId id (.pop runtimeId turns)))
  | .batch runtimeId rest, none => (none, some (.dropping runtimeId id (.batch runtimeId rest)))
  | .batch runtimeId rest, some req =>
    if req.status = .pending then (none, some (.claiming runtimeId req (.batch runtimeId rest)))
    else (none, some (.dropping runtimeId id (.batch runtimeId rest)))
  | .settle _ _, none => (none, none)
  | .settle report seen, some req => (none, some (.settling req report seen))
  | .handle _ _, none => (none, none)
  | .handle runtimeId report, some req =>
    if req.runtimeId ≠ runtimeId then (none, none)
    else if req.status.terminal then (some (id, req.status), none)
    else (none, some (.loading id (.settle report (some req.status))))

/-- `localSkillRedisPopMaxRetries` -/
def popMaxRetries : Nat := 5

/-- One command of a call, at a reading of its node's clock: what it shows, what
it changes, and where the call goes on. -/
def State.command (s : State K) (now : Nat) : Pc K → Effect × State K × Option (Pc K)
  | .adding req => (.silent, s.zadd req.runtimeId (float64 req.createdAt) req.id, some (.renewing req))
  | .renewing req => (.answer (some (req.id, req.status)), s, none)
  | .deleting req => (.silent, s.del req.id, some (.removing req))
  | .removing req => (.silent, s.zrem req.runtimeId req.id, none)
  | .probing _ => (.silent, s, none)
  | .ranging runtimeId turns =>
    (.silent, s, (s.pending runtimeId).members.head?.map fun id => .loading id (.pop runtimeId turns))
  | .rangingBatch runtimeId limit =>
    (.silent, s, Purpose.next (.batch runtimeId (s.rangeOf runtimeId limit)))
  | .loading id purpose =>
    match s.records id with
    | none => (.answer (purpose.loaded id none).1, s, (purpose.loaded id none).2)
    | some wire =>
      match applyTimeout (K.unmarshal wire) now with
      | some req => (.silent, s, some (.timingOut (K.unmarshal wire).status req purpose))
      | none => (.answer (purpose.loaded id (some (K.unmarshal wire))).1, s,
          (purpose.loaded id (some (K.unmarshal wire))).2)
  | .timingOut _ req purpose => (⟨some (s.write req), none, none⟩, s.put req, some (.unlisting req purpose))
  | .unlisting req purpose => (.answer (purpose.loaded req.id (some req)).1,
      s.zrem req.runtimeId req.id, (purpose.loaded req.id (some req)).2)
  | .dropping runtimeId id purpose => (.silent, s.zrem runtimeId id, purpose.next)
  | .claiming runtimeId req purpose =>
    if req.id ∈ (s.pending runtimeId).members then
      (⟨some (s.write (req.started now)), some req.id, some (req.id, .running)⟩,
        (s.zrem runtimeId req.id).put (req.started now), purpose.claimed)
    else (.silent, s, purpose.next)
  | .settling req report _ =>
    (⟨some (s.write (req.settled (K.settlement report) now)), none,
        some (req.id, (K.settlement report).status)⟩,
      s.put (req.settled (K.settlement report) now), none)

/-! ## Steps -/

inductive Event (K : Kind)
  | begin (call : Nat) (op : Op K) (now : Nat)
  | advance (call : Nat) (now : Nat)
  /-- a command is not done, or its reply is lost -/
  | fail (call : Nat)
  | expireRecord (id : String)
  | expirePending (runtimeId : String)

/-- The first command of an operation that has not done any yet. -/
def Op.first : Op K → Option (Pc K)
  | .create _ _ _ => none
  | .get id => some (.loading id .get)
  | .hasPending runtimeId => some (.probing runtimeId)
  | .popPending runtimeId => some (.ranging runtimeId (popMaxRetries - 1))
  | .popPendingBatch runtimeId limit => some (.rangingBatch runtimeId limit)
  | .settle id report => some (.loading id (.settle report none))
  | .handle id runtimeId report => some (.loading id (.handle runtimeId report))

/-- How a call goes on after an error, and what it answers. -/
def Pc.failed : Pc K → Effect × Option (Pc K)
  | .adding req => (.silent, some (.deleting req))
  | .renewing req => (.silent, some (.deleting req))
  | .deleting req => (.silent, some (.removing req))
  | .unlisting req purpose => (.answer (purpose.loaded req.id (some req)).1, (purpose.loaded req.id (some req)).2)
  | .dropping _ _ purpose => (.silent, purpose.next)
  | _ => (.silent, none)

def State.goOn (s : State K) (call : Nat) (pc : Option (Pc K)) : State K :=
  { s with calls := Function.update s.calls call pc }

/-- `Create` stores its record as it begins, under an id nobody knows. -/
def State.step (s : State K) : Event K → Effect × State K
  | .begin call (.create id runtimeId input) now =>
    let req := Request.new id runtimeId (K.initial input) now
    (⟨some (s.write req), none, none⟩, (s.put req).goOn call (some (.adding req)))
  | .begin call op _ => (.silent, s.goOn call op.first)
  | .advance call now =>
    match s.calls call with
    | none => (.silent, s)
    | some pc => ((s.command now pc).1, (s.command now pc).2.1.goOn call (s.command now pc).2.2)
  | .fail call =>
    match s.calls call with
    | none => (.silent, s)
    | some pc => (pc.failed.1, s.goOn call pc.failed.2)
  | .expireRecord id => (.silent, s.del id)
  | .expirePending runtimeId =>
    (.silent, { s with pending := Function.update s.pending runtimeId ∅ })

end ClawMessenger.Ports.LocalSkill.Commands
