import ClawMessenger.Verified.Lease
import ClawMessenger.Verified.Machine
import ClawMessenger.Verified.Lookup

/-!
# The lease of a channel connection

Every replica runs a supervisor for an installation, and successive ones when
its credentials rotate.  A supervisor acquires the lease in Redis, builds the
channel, runs its connection under a context of its own while a second
goroutine renews the lease, and releases it at the end.

A request to Redis is sent at one moment and takes effect at another, once or
never, and the call may be over by then: a caller that gives up does not take
its request back.  All times are nanoseconds of one clock.  The entry in Redis
is kept for its time at least; when it goes after that is left open.
-/

namespace ClawMessenger.Ports.ChannelLease

open Verified

/-! ## Configuration -/

/-- The `Config` of the supervisors, validated. -/
structure Config where
  leaseTTL : Nat
  leaseRenewInterval : Nat
  leaseExpirySafetyMargin : Nat
  renew_pos : 0 < leaseRenewInterval
  renew_lt : leaseRenewInterval < leaseTTL
  margin_pos : 0 < leaseExpirySafetyMargin
  margin_lt : leaseExpirySafetyMargin < leaseTTL - leaseRenewInterval

/-- `TTL.Milliseconds()`. -/
def Config.ttlMillis (cfg : Config) : Nat := cfg.leaseTTL / 1000000

/-- The time an entry is kept in Redis. -/
def Config.kept (cfg : Config) : Nat := cfg.ttlMillis * 1000000

/-- The end of what a request confirms that was sent at `started`. -/
def Config.confirmedUntil (cfg : Config) (started : Nat) : Nat :=
  started + (cfg.leaseTTL - cfg.leaseExpirySafetyMargin)

/-! ## Tokens -/

/-- A supervisor: the node id of its process, and its generation there. -/
abbrev Name := String × Nat

def leaseToken (name : Name) : String := name.1 ++ "-g" ++ toString name.2

/-! ## Redis -/

inductive Script where
  | redisTryAcquireLease
  | redisRenewLease
  | redisReleaseLease
deriving DecidableEq, Repr

structure Request where
  script : Script
  sender : Name

/-- Whether the result is not zero, and the key after it. -/
def Script.run (script : Script) (key : Lease.Register String) (token : String) (kept now : Nat) :
    Bool × Lease.Register String :=
  match script with
  | .redisTryAcquireLease => Lease.tryAcquire key token kept now
  | .redisRenewLease => Lease.renew key token kept now
  | .redisReleaseLease => Lease.release key token

/-! ## Supervisors -/

/-- `renewLeaseUntil`. -/
inductive Renewal where
  | waiting
  | attempting (request started : Nat)
  | exited
deriving DecidableEq, Repr

/-- A connection: when the last confirmed request was sent, whether `runCtx`
was cancelled, and whether `Connect` has not returned. -/
structure Run where
  confirmed : Nat
  renewal : Renewal
  cancelled : Bool
  connected : Bool

/-- Where `supervise` stands. -/
inductive Phase where
  | top
  | acquiring (request started : Nat)
  | building (confirmed : Nat)
  | running (run : Run)
  | releasing (request : Nat)
  | sleeping
  | exited

/-- `cancelled` is the context of the supervisor. -/
structure Supervisor where
  phase : Phase
  cancelled : Bool

/-- What a process keeps for the installation. -/
structure Replica where
  entry : Option Nat
  supervisorGen : Nat
  stopped : Bool

structure State where
  now : Nat
  key : Lease.Register String
  requests : OrderedMap Nat Request
  results : OrderedMap Nat Bool
  nextRequest : Nat
  replicas : OrderedMap String Replica
  supervisors : OrderedMap Name Supervisor

def init : State := ⟨0, none, ∅, ∅, 0, ∅, ∅⟩

def State.replica (s : State) (nodeID : String) : Replica :=
  (s.replicas.get? nodeID).getD ⟨none, 0, false⟩

/-- A request on its way. -/
def State.send (s : State) (script : Script) (sender : Name) : State :=
  { s with
    requests := s.requests.set s.nextRequest ⟨script, sender⟩
    nextRequest := s.nextRequest + 1 }

def State.put (s : State) (name : Name) (supervisor : Supervisor) : State :=
  { s with supervisors := s.supervisors.set name supervisor }

/-- `supervise` returns. -/
def State.exit (s : State) (name : Name) (supervisor : Supervisor) : State :=
  let replica := s.replica name.1
  let entry := if replica.entry = some name.2 then none else replica.entry
  { s.put name { supervisor with phase := .exited } with
    replicas := s.replicas.set name.1 { replica with entry := entry } }

/-! ## Steps -/

def startSupervisor (s : State) (nodeID : String) : State :=
  let replica := s.replica nodeID
  if replica.stopped then s
  else if replica.entry.isSome then s
  else
    let gen := replica.supervisorGen + 1
    { s.put (nodeID, gen) ⟨.top, false⟩ with
      replicas := s.replicas.set nodeID { replica with entry := some gen, supervisorGen := gen } }

/-- `entry.cancel()`. -/
def State.cancelEntry (s : State) (nodeID : String) (gen : Nat) : State :=
  match s.supervisors.get? (nodeID, gen) with
  | none => s
  | some supervisor => s.put (nodeID, gen) { supervisor with cancelled := true }

/-- `cancelOnRotation`, the reaping of `sweep` and, with `stop`, `cancelAll`. -/
def cancelSupervisor (s : State) (nodeID : String) (stop : Bool) : State :=
  let replica := s.replica nodeID
  let s := match replica.entry with
    | none => s
    | some gen => s.cancelEntry nodeID gen
  { s with
    replicas := s.replicas.set nodeID
      { replica with entry := none, stopped := replica.stopped || stop } }

/-- The call is back, or it has failed; with neither it goes on waiting. -/
inductive Reply where
  | waits
  | failed
  | answer (granted : Bool)

def State.reply (s : State) (request : Nat) (ok : Bool) : Reply :=
  if !ok then .failed
  else
    match s.results.get? request with
    | none => .waits
    | some granted => .answer granted

section

variable (cfg : Config) (s : State) (name : Name) (supervisor : Supervisor)

/-- `supervise`: what `ok` tells is whether the call or `Build` goes well. -/
def supervise (ok : Bool) :
    State :=
  match supervisor.phase with
  | .top =>
    if supervisor.cancelled then s.exit name supervisor
    else if cfg.ttlMillis = 0 then s.exit name supervisor
    else
      (s.send .redisTryAcquireLease name).put name
        { supervisor with phase := .acquiring s.nextRequest s.now }
  | .acquiring request started =>
    match s.reply request ok with
    | .waits => s
    | .failed => s.exit name supervisor
    | .answer false => s.exit name supervisor
    | .answer true => s.put name { supervisor with phase := .building started }
  | .building confirmed =>
    if ok then s.put name { supervisor with phase := .running ⟨confirmed, .waiting, false, true⟩ }
    else
      (s.send .redisReleaseLease name).put name
        { supervisor with phase := .releasing s.nextRequest }
  | .running run =>
    if run.connected then
      -- `Connect` returns, and `runCancel` follows.
      s.put name { supervisor with
        phase := .running { run with connected := false, cancelled := true } }
    else if run.renewal = .exited then
      (s.send .redisReleaseLease name).put name
        { supervisor with phase := .releasing s.nextRequest }
    else s
  | .releasing request =>
    match s.reply request ok with
    | .waits => s
    | _ =>
      if supervisor.cancelled then s.exit name supervisor
      else s.put name { supervisor with phase := .sleeping }
  | .sleeping =>
    if supervisor.cancelled then s.exit name supervisor
    else s.put name { supervisor with phase := .top }
  | .exited => s

/-- `renewLeaseUntil`, as far as the run it belongs to. -/
def renewLeaseUntil (run : Run)
    (ok : Bool) : State :=
  let putRun (s : State) (run : Run) : State := s.put name { supervisor with phase := .running run }
  match run.renewal with
  | .waiting =>
    if cfg.confirmedUntil run.confirmed ≤ s.now then
      putRun s { run with renewal := .exited, cancelled := true }
    else if run.cancelled || supervisor.cancelled then putRun s { run with renewal := .exited }
    else if cfg.ttlMillis = 0 then s
    else
      putRun (s.send .redisRenewLease name)
        { run with renewal := .attempting s.nextRequest s.now }
  | .attempting request started =>
    match s.reply request ok with
    | .waits => s
    | .failed => putRun s { run with renewal := .waiting }
    | .answer true => putRun s { run with renewal := .waiting, confirmed := started }
    | .answer false => putRun s { run with renewal := .exited, cancelled := true }
  | .exited => s

end

inductive Action where
  | tick (elapsed : Nat)
  | expire
  | takeEffect (request : Nat)
  | lose (request : Nat)
  | startSupervisor (nodeID : String)
  | cancelSupervisor (nodeID : String) (stop : Bool)
  | supervise (name : Name) (ok : Bool)
  | renew (name : Name) (ok : Bool)

/-- The script of a request runs, at most once. -/
def takeEffect (cfg : Config) (s : State) (request : Nat) (r : Request) : State :=
  let (granted, key) := r.script.run s.key (leaseToken r.sender) cfg.kept s.now
  { s with
    key := key
    requests := s.requests.erase request
    results := s.results.set request granted }

def next (cfg : Config) (s : State) : Action → State
  | .tick elapsed => { s with now := s.now + elapsed }
  | .expire => { s with key := Lease.expire s.key s.now }
  | .takeEffect request =>
    match s.requests.get? request with
    | none => s
    | some r => takeEffect cfg s request r
  | .lose request => { s with requests := s.requests.erase request }
  | .startSupervisor nodeID => startSupervisor s nodeID
  | .cancelSupervisor nodeID stop => cancelSupervisor s nodeID stop
  | .supervise name ok =>
    match s.supervisors.get? name with
    | none => s
    | some supervisor => supervise cfg s name supervisor ok
  | .renew name ok =>
    match s.supervisors.get? name with
    | none => s
    | some supervisor =>
      match supervisor.phase with
      | .running run => renewLeaseUntil cfg s name supervisor run ok
      | _ => s

def step (cfg : Config) (s : State) (action : Action) : Unit × State := ((), next cfg s action)

abbrev Cfg := Verified.Config State Action Unit

/-- The context of the connection was started and is not cancelled. -/
def Supervisor.Live (supervisor : Supervisor) (run : Run) : Prop :=
  supervisor.phase = .running run ∧ run.cancelled = false ∧ supervisor.cancelled = false

def Live (s : State) (name : Name) : Prop :=
  ∃ supervisor run, s.supervisors.get? name = some supervisor ∧ supervisor.Live run

end ClawMessenger.Ports.ChannelLease
