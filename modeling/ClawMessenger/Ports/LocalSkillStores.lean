import ClawMessenger.Ports.LocalSkillRequest
import ClawMessenger.Verified.ExpiringStore
import ClawMessenger.Verified.Machine
import ClawMessenger.Verified.SortedSet

/-!
# The two stores of local-skill requests

`server/internal/handler/runtime_local_skills.go` and
`runtime_local_skills_redis_store.go`.  One store keeps live structs in a map
under a mutex, the other their encodings in Redis next to a sorted set of
pending ids for each runtime.  Here both are called one call at a time, at one
reading of the clock each; what interleaved Redis commands do is another
module's subject.

A Go map is walked in an order of its own, so `popPending` of the store in
memory is given the walk.
-/

namespace ClawMessenger.Ports.LocalSkill

open Verified

/-! ## The store in memory -/

abbrev InMemoryStore (β : Type) := String → Option (Request β)

namespace InMemoryStore

variable {β : Type} (s : InMemoryStore β) (now : Nat)

/-- Drop what was created longer ago than the retention. -/
def purge : InMemoryStore β := fun id =>
  (s id).filter fun req => decide (now - req.createdAt ≤ storeRetention)

def create (id runtimeId : String) (body : β) : Request β × InMemoryStore β :=
  let req := Request.new id runtimeId body now
  (req, Function.update (s.purge now) id (some req))

/-- Apply the timeout to one request of the map. -/
def touch (id : String) : InMemoryStore β :=
  Function.update s id ((s id).map fun req => req.aged now)

def get (id : String) : Option (Request β) × InMemoryStore β :=
  ((s id).map fun req => req.aged now, s.touch now id)

/-- Apply the timeouts to every request. -/
def sweep : InMemoryStore β := fun id => (s id).map fun req => req.aged now

/-- One turn of the loop of `PopPending`, after the timeout was applied. -/
def older (runtimeId : String) (oldest : Option (Request β)) (req : Request β) :
    Option (Request β) :=
  if req.runtimeId = runtimeId ∧ req.status = .pending then
    match oldest with
    | none => some req
    | some o => if req.createdAt < o.createdAt then some req else some o
  else oldest

def oldest (runtimeId : String) (walk : List String) : Option (Request β) :=
  (walk.filterMap (s.sweep now)).foldl (older runtimeId) none

def popPending (runtimeId : String) (walk : List String) : Option (Request β) × InMemoryStore β :=
  match s.oldest now runtimeId walk with
  | none => (none, s.sweep now)
  | some req => (some (req.started now), Function.update (s.sweep now) req.id (some (req.started now)))

/-- `Complete`, `Conflict` and `Fail` -/
def settle (id : String) (report : Settlement β) : InMemoryStore β :=
  Function.update s id ((s id).map fun req => req.settled report now)

end InMemoryStore

/-! ## The store in Redis -/

structure RedisStore (K : Kind) where
  records : ExpiringStore String K.Wire
  pending : ExpiringStore String (SortedSet Nat String)

namespace RedisStore

variable {K : Kind} (s : RedisStore K) (now : Nat)

/-- Redis without what is past its deadline. -/
def live : RedisStore K := ⟨s.records.purge now, s.pending.purge now⟩

def pendingOf (runtimeId : String) : SortedSet Nat String := (s.pending.get runtimeId).getD ∅

/-- `persistListRequest` and `persistImportRequest` -/
def persist (req : Request K.Body) : RedisStore K :=
  { s with records := s.records.put req.id (K.marshal req) (now + storeRetention) }

def zadd (runtimeId : String) (score : Nat) (id : String) : RedisStore K :=
  { s with pending := s.pending.modify runtimeId fun z => (z.getD ∅).add score id }

def zrem (runtimeId id : String) : RedisStore K :=
  { s with pending := s.pending.modify runtimeId fun z => (z.getD ∅).remove id }

def expirePending (runtimeId : String) : RedisStore K :=
  { s with pending := s.pending.renew runtimeId (now + storeRetention * 2) }

/-- `claimPendingScript` -/
def claim (runtimeId : String) (req : Request K.Body) : Bool × RedisStore K :=
  if req.id ∈ (s.pendingOf runtimeId).members then (true, (s.zrem runtimeId req.id).persist now req)
  else (false, s)

def create (id runtimeId : String) (body : K.Body) : Request K.Body × RedisStore K :=
  let req := Request.new id runtimeId body now
  (req, (((s.live now).persist now req).zadd runtimeId (float64 now) id).expirePending now runtimeId)

/-- `loadListRequest` and `loadImportRequest` -/
def load (id : String) : Option (Request K.Body) × RedisStore K :=
  match s.records.get id with
  | none => (none, s)
  | some wire =>
    let req := K.unmarshal wire
    match applyTimeout req now with
    | none => (some req, s)
    | some req => (some req, (s.persist now req).zrem req.runtimeId req.id)

def get (id : String) : Option (Request K.Body) × RedisStore K := (s.live now).load now id

/-- The turns of the loop of `PopPending` that are left. -/
def attempts (runtimeId : String) : Nat → RedisStore K → Option (Request K.Body) × RedisStore K
  | 0, s => (none, s)
  | n + 1, s =>
    match (s.pendingOf runtimeId).members with
    | [] => (none, s)
    | id :: _ =>
      match s.load now id with
      | (none, s) => attempts runtimeId n (s.zrem runtimeId id)
      | (some req, s) =>
        if req.status = .pending then
          match s.claim now runtimeId (req.started now) with
          | (true, s) => (some (req.started now), s)
          | (false, s) => attempts runtimeId n s
        else attempts runtimeId n (s.zrem runtimeId id)

/-- `localSkillRedisPopMaxRetries` -/
def popMaxRetries : Nat := 5

def popPending (runtimeId : String) : Option (Request K.Body) × RedisStore K :=
  attempts now runtimeId popMaxRetries (s.live now)

/-- `Complete`, `Conflict` and `Fail` -/
def settle (id : String) (report : Settlement K.Body) : RedisStore K :=
  match (s.live now).load now id with
  | (none, s) => s
  | (some req, s) => s.persist now (req.settled report now)

end RedisStore

/-! ## Both stores under the same calls -/

inductive Call (K : Kind)
  | create (id runtimeId : String) (input : K.Input)
  | get (id : String)
  | popPending (runtimeId : String) (walk : List String)
  | report (id : String) (report : K.Report)

/-- The two stores, the last reading of the clock and when each id was made. -/
structure World (K : Kind) where
  memory : InMemoryStore K.Body
  redis : RedisStore K
  clock : Nat
  born : String → Option Nat

def World.start (K : Kind) : World K where
  memory := fun _ => none
  redis := ⟨fun _ => none, fun _ => none⟩
  clock := 0
  born := fun _ => none

/-- What the two stores answer a call: the request they return, if any. -/
structure Answers (K : Kind) where
  memory : Option (Request K.Body)
  redis : Option (Request K.Body)

def World.step {K : Kind} (w : World K) : Nat × Call K → Answers K × World K
  | (now, .create id runtimeId input) =>
    let m := w.memory.create now id runtimeId (K.initial input)
    let r := w.redis.create now id runtimeId (K.initial input)
    (⟨some m.1, some r.1⟩, ⟨m.2, r.2, now, Function.update w.born id (some now)⟩)
  | (now, .get id) =>
    let m := w.memory.get now id
    let r := w.redis.get now id
    (⟨m.1, r.1⟩, ⟨m.2, r.2, now, w.born⟩)
  | (now, .popPending runtimeId walk) =>
    let m := w.memory.popPending now runtimeId walk
    let r := w.redis.popPending now runtimeId
    (⟨m.1, r.1⟩, ⟨m.2, r.2, now, w.born⟩)
  | (now, .report id report) =>
    (⟨none, none⟩, ⟨w.memory.settle now id (K.settlement report),
      w.redis.settle now id (K.settlement report), now, w.born⟩)

end ClawMessenger.Ports.LocalSkill
