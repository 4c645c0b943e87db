import ClawMessenger.Ports.SchedulerStoreLease
import ClawMessenger.Verified.OrderedMap

/-!
# The scheduler's ticks

Every runner ticks its jobs: it reads the time of the database, closes the
leases that have gone stale, plans, and for each plan claims, runs the handler
and writes what came of it.  A tick is a program counter between two statements;
the ticks of any number of runners take turns, a handler runs for as long as it
likes, a runner may die, and a statement may fail.

The answer of a planning is all that it has read and returned, so that the
history of a run tells what was planned from which rows.
-/

namespace ClawMessenger.Ports.SchedulerManager

open Verified SchedulerStore List

/-! ## Jobs that may be registered -/

/-- `unicode.IsSpace`. -/
def isSpace (c : Char) : Bool :=
  let n := c.toNat
  (9 ≤ n && n ≤ 13) || n == 0x20 || n == 0x85 || n == 0xA0 || n == 0x1680
    || (0x2000 ≤ n && n ≤ 0x200A) || n == 0x2028 || n == 0x2029 || n == 0x202F || n == 0x205F
    || n == 0x3000

/-- `validate`, without the fields that are functions. -/
def validate (job : JobSpec) : Bool :=
  !job.name.toList.all isSpace && (job.plansForScope.isSome || decide (0 < job.cadence))
    && decide (0 < job.runTimeout) && decide (job.runTimeout < job.staleTimeout)
    && decide (0 < job.heartbeatInterval) && decide (job.heartbeatInterval < job.staleTimeout)
    && decide (1 ≤ job.maxAttempts)
    && (job.plansForScope.isSome || job.catchUpMode != .everyPlan || decide (0 < job.maxPlansPerTick))

/-! ## Planning -/

/-- `FloorPlan`. -/
def floorPlan (eligible : Time) (cadence : Duration) : Time :=
  if cadence ≤ 0 then eligible else eligible - eligible % cadence

inductive PlanError where
  | hook (error : String)
  | unknownCatchUpMode (mode : CatchUpMode)

/-- The last loop of `plansForTick`, for at most `n` plans. -/
def planTimes (cadence latest : Int) : Nat → Time → List Time
  | 0, _ => []
  | n + 1, t => if latest < t then [] else t :: planTimes cadence latest n (t + cadence)

/-- The oldest plan time that is still in the window. -/
def oldestAllowed (job : JobSpec) (now latest : Time) : Time :=
  if job.catchUpWindow ≤ 0 then latest else now - job.catchUpWindow

/-- Where an every-plan job resumes. -/
def resumeAt (job : JobSpec) (info : LatestPlanInfo) (now latest : Time) : Time :=
  if info.found && info.retryEligible now then info.planTime
  else if info.found then info.planTime + job.cadence
  else latest

/-- The first plan time of an every-plan job. -/
def firstPlan (job : JobSpec) (info : LatestPlanInfo) (now latest : Time) : Time :=
  let start := resumeAt job info now latest
  let oldest := oldestAllowed job now latest
  if start < oldest then
    let floored := floorPlan oldest job.cadence
    if floored < oldest then floored + job.cadence else floored
  else start

/-- The plan of the current time. -/
def latestDue (job : JobSpec) (now : Time) : Time := floorPlan (now - job.scheduleDelay) job.cadence

def plansForTick (job : JobSpec) (scope : Scope) (now : Time) (info : LatestPlanInfo) :
    Except PlanError (List Time) :=
  match job.plansForScope with
  | some hook =>
    match hook scope now info with
    | .error error => .error (.hook error)
    | .ok plans =>
      .ok (if 0 < job.maxPlansPerTick then plans.take job.maxPlansPerTick.toNat else plans)
  | none =>
    let latest := latestDue job now
    if now - job.scheduleDelay < latest then .ok []
    else
      match job.catchUpMode with
      | .latestOnly => .ok [latest]
      | .everyPlan =>
        .ok (planTimes job.cadence latest job.maxPlansPerTick.toNat
          (firstPlan job info now latest))
      | mode => .error (.unknownCatchUpMode mode)

/-! ## Ticks -/

inductive TickPc where
  /-- Waits for the scopes. -/
  | scoping
  | sweeping (scopes : List Scope)
  /-- Plans the first of the scopes next; a tick without scopes is over. -/
  | planning (scopes : List Scope)
  | inserting (scopes : List Scope) (scope : Scope) (planTime : Time) (plans : List Time)
  | stealing (scopes : List Scope) (scope : Scope) (planTime : Time) (plans : List Time)
  /-- The handler runs. -/
  | running (scopes : List Scope) (scope : Scope) (planTime : Time) (plans : List Time)
      (claim : Claim)

/-- `runJob` of one runner; `now` is the time that its `RunOnce` has read. -/
structure Tick where
  job : JobSpec
  now : Time
  runnerId : String
  pc : TickPc

structure State where
  rows : Table := []
  /-- `now()` of the database. -/
  clock : Time := 0
  ticks : OrderedMap Nat Tick := ∅

/-- Why a handler has failed, as `classifyError` sees it. -/
inductive HandlerError where
  | deadlineExceeded
  | canceled
  | leaseLost
  | panic
  | other

def classifyError : HandlerError → String
  | .deadlineExceeded => "run_timeout"
  | .canceled => "canceled"
  | .leaseLost => "lease_lost"
  | .panic => "handler_panic"
  | .other => "handler_error"

inductive Outcome where
  | succeeded (res : HandlerResult)
  | failed (error : HandlerError) (message : List UInt8)

/-- What a planning has read and returned. -/
structure Planning where
  job : JobSpec
  scope : Scope
  now : Time
  rows : Table
  plans : List Time

inductive Answer where
  | nothing
  | planned (planning : Planning)
  | reply (reply : Reply)

def State.setTick (s : State) (n : Nat) (tick : Tick) (pc : TickPc) : State :=
  { s with ticks := s.ticks.set n { tick with pc := pc } }

/-- The next plan of a scope, or the next scope. -/
def nextPlan (scopes : List Scope) (scope : Scope) : List Time → TickPc
  | [] => .planning scopes
  | planTime :: plans => .inserting scopes scope planTime plans

/-- A statement of a tick; one that fails has done nothing. -/
def State.run (s : State) (statement : Statement) (ok : Bool) : Reply × State :=
  if ok then
    let done := execute s.rows statement
    (done.1, { s with rows := done.2 })
  else (.refused, s)

def State.plan (s : State) (n : Nat) (tick : Tick) (scope : Scope) (scopes : List Scope) :
    Answer × State :=
  match plansForTick tick.job scope tick.now (latestPlan s.rows tick.job.name scope) with
  | .error _ => (.nothing, s.setTick n tick (.planning scopes))
  | .ok plans =>
    (.planned ⟨tick.job, scope, tick.now, s.rows, plans⟩,
      s.setTick n tick (nextPlan scopes scope plans))

section

variable (s : State) (n : Nat) (tick : Tick) (scopes : List Scope) (scope : Scope)

/-- The insertion of `tryClaim`. -/
def State.insert (planTime : Time) (plans : List Time) (id leaseToken : Uuid) (ok : Bool) : Answer × State :=
  let done := s.run
    (.claimInsert tick.job scope planTime tick.now tick.runnerId id leaseToken) ok
  match done.1 with
  | .claimed claim =>
    (.reply done.1, done.2.setTick n tick (.running scopes scope planTime plans claim))
  | .noRows => (.reply done.1, done.2.setTick n tick (.stealing scopes scope planTime plans))
  | _ => (.reply done.1, done.2.setTick n tick (nextPlan scopes scope plans))

/-- The update of `tryClaim`. -/
def State.steal (planTime : Time) (plans : List Time) (leaseToken : Uuid) (ok : Bool) : Answer × State :=
  let done := s.run (.claimSteal tick.job scope planTime tick.now tick.runnerId leaseToken) ok
  match done.1 with
  | .claimed claim =>
    if claim.stole then
      (.reply done.1, done.2.setTick n tick (.running scopes scope planTime plans claim))
    else (.reply done.1, done.2.setTick n tick (nextPlan scopes scope plans))
  | _ => (.reply done.1, done.2.setTick n tick (nextPlan scopes scope plans))

/-- The terminal write of `runClaimed`; `localNow` is the local time, which
stands in where the time of the database cannot be read. -/
def State.finish (plans : List Time) (claim : Claim) (outcome : Outcome) (durationMs : Int)
    (localNow : Option Time) (ok : Bool) : Answer × State :=
  let dbTime := localNow.getD s.clock
  let statement : Statement :=
    match outcome with
    | .succeeded res => .finishSuccess claim.id claim.leaseToken dbTime durationMs res
    | .failed error message =>
      .finishFailure claim.id claim.leaseToken dbTime durationMs (classifyError error) message
        (if claim.attempt < tick.job.maxAttempts then dbTime + tick.job.retryDelay claim.attempt
        else 0)
  let done := s.run statement ok
  (.reply done.1, done.2.setTick n tick (nextPlan scopes scope plans))

end

inductive Action where
  | setClock (now : Time)
  /-- A runner comes to the job; `now` is what it has read from the database. -/
  | begin (n : Nat) (job : JobSpec) (now : Time) (runnerId : String)
  | scopes (n : Nat) (answer : Option (List Scope))
  | sweep (n : Nat) (ok : Bool)
  | plan (n : Nat) (ok : Bool)
  | insert (n : Nat) (id leaseToken : Uuid) (ok : Bool)
  | steal (n : Nat) (leaseToken : Uuid) (ok : Bool)
  /-- From the ticker of the claim, or from its handler. -/
  | heartbeat (n : Nat) (ok : Bool)
  | finish (n : Nat) (outcome : Outcome) (durationMs : Int) (localNow : Option Time) (ok : Bool)
  /-- The runner dies. -/
  | crash (n : Nat)

def State.stepTick (s : State) (n : Nat) (tick : Tick) : Action → Answer × State
  | .scopes _ answer =>
    match tick.pc with
    | .scoping =>
      match answer with
      | none => (.nothing, { s with ticks := s.ticks.erase n })
      | some scopes => (.nothing, s.setTick n tick (.sweeping scopes))
    | _ => (.nothing, s)
  | .sweep _ ok =>
    match tick.pc with
    | .sweeping scopes =>
      let done := s.run (.markStaleAsFailed tick.job.name tick.now) ok
      (.reply done.1, done.2.setTick n tick (.planning scopes))
    | _ => (.nothing, s)
  | .plan _ ok =>
    match tick.pc with
    | .planning (scope :: scopes) =>
      if ok then s.plan n tick scope scopes
      else (.nothing, s.setTick n tick (.planning scopes))
    | _ => (.nothing, s)
  | .insert _ id leaseToken ok =>
    match tick.pc with
    | .inserting scopes scope planTime plans =>
      s.insert n tick scopes scope planTime plans id leaseToken ok
    | _ => (.nothing, s)
  | .steal _ leaseToken ok =>
    match tick.pc with
    | .stealing scopes scope planTime plans =>
      s.steal n tick scopes scope planTime plans leaseToken ok
    | _ => (.nothing, s)
  | .heartbeat _ ok =>
    match tick.pc with
    | .running _ _ _ _ claim =>
      let done := s.run
        (.heartbeat claim.id claim.leaseToken tick.job.staleTimeout s.clock) ok
      (.reply done.1, done.2)
    | _ => (.nothing, s)
  | .finish _ outcome durationMs localNow ok =>
    match tick.pc with
    | .running scopes scope _ plans claim =>
      s.finish n tick scopes scope plans claim outcome durationMs localNow ok
    | _ => (.nothing, s)
  | .crash _ => (.nothing, { s with ticks := s.ticks.erase n })
  | _ => (.nothing, s)

/-- The tick that an action belongs to. -/
def Action.tick? : Action → Option Nat
  | .scopes n _ => some n
  | .sweep n _ => some n
  | .plan n _ => some n
  | .insert n _ _ _ => some n
  | .steal n _ _ => some n
  | .heartbeat n _ => some n
  | .finish n _ _ _ _ => some n
  | .crash n => some n
  | _ => none

def step (s : State) (action : Action) : Answer × State :=
  match action.tick? with
  | some n => (s.ticks.get? n).elim (.nothing, s) fun tick => s.stepTick n tick action
  | none =>
    match action with
    | .setClock now => (.nothing, { s with clock := now })
    | .begin n job now runnerId =>
      (.nothing, { s with ticks := s.ticks.set n ⟨job, now, runnerId, .scoping⟩ })
    | _ => (.nothing, s)

abbrev Run := Config State Action Answer

/-- The time of the database advances and counts microseconds, a tick has read
it, and a runner ticks the jobs of the registry. -/
def allowed (registry : List JobSpec) (c : Run) : Action → Prop
  | .setClock now => c.state.clock ≤ now ∧ timestamptz now = now
  | .begin n job now _ => c.state.ticks.get? n = none ∧ job ∈ registry ∧ now ≤ c.state.clock ∧
      timestamptz now = now
  | _ => True

/-! ## What one step does -/

/-- The plan times that a tick has not tried yet. -/
def TickPc.pending : TickPc → List Time
  | .inserting _ _ planTime plans => planTime :: plans
  | .stealing _ _ planTime plans => planTime :: plans
  | .running _ _ _ plans _ => plans
  | _ => []

theorem pending_nextPlan (scopes : List Scope) (scope : Scope) (plans : List Time) :
    (nextPlan scopes scope plans).pending = plans := by
  cases plans <;> rfl

/-- The statements that an action of a tick may execute. -/
def Issues (tick : Tick) (action : Action) : Statement → Prop
  | .claimInsert job scope planTime dbTime _ _ _ => job = tick.job ∧ dbTime = tick.now ∧
      ∃ scopes plans, tick.pc = .inserting scopes scope planTime plans
  | .claimSteal job scope planTime dbTime _ leaseToken => job = tick.job ∧ dbTime = tick.now ∧
      (∃ scopes plans, tick.pc = .stealing scopes scope planTime plans) ∧
      ∃ n, action = .steal n leaseToken true
  | .markStaleAsFailed jobName dbTime => jobName = tick.job.name ∧ dbTime = tick.now
  | .finishFailure _ _ _ _ errorCode _ _ => ∃ error, errorCode = classifyError error
  | _ => True

/-- What a step may do to the ticks and the table: nothing, or one statement. -/
structure Turn (s : State) (n : Nat) (tick : Tick) (action : Action) (s' : State) : Prop where
  clock : s'.clock = s.clock
  rows : s'.rows = s.rows ∨
    ∃ statement, Issues tick action statement ∧ s'.rows = (execute s.rows statement).2
  ticks : s'.ticks = s.ticks ∨ s'.ticks = s.ticks.erase n ∨
    ∃ pc : TickPc, s'.ticks = s.ticks.set n { tick with pc := pc } ∧
      (pc.pending ⊆ tick.pc.pending ∨ ∃ scope,
        plansForTick tick.job scope tick.now (latestPlan s.rows tick.job.name scope) =
          .ok pc.pending)

theorem Turn.none (s : State) (n : Nat) (tick : Tick) (action : Action) :
    Turn s n tick action s :=
  ⟨rfl, .inl rfl, .inl rfl⟩

/-- A tick goes on without a statement. -/
theorem Turn.goOn (s : State) (n : Nat) (tick : Tick) (action : Action) {pc : TickPc}
    (hpc : pc.pending ⊆ tick.pc.pending) : Turn s n tick action (s.setTick n tick pc) :=
  ⟨rfl, .inl rfl, .inr (.inr ⟨pc, rfl, .inl hpc⟩)⟩

variable {statement : Statement}

section

variable (s : State) (n : Nat) (tick : Tick) (action : Action)
include s n tick action

/-- A tick goes on after a statement. -/
theorem Turn.ofRun {ok : Bool} {pc : TickPc} (hissues : ok = true → Issues tick action statement)
    (hpc : pc.pending ⊆ tick.pc.pending) :
    Turn s n tick action ((s.run statement ok).2.setTick n tick pc) := by
  unfold State.run
  by_cases hok : ok = true
  · rw [if_pos hok]
    exact ⟨rfl, .inr ⟨statement, hissues hok, rfl⟩, .inr (.inr ⟨pc, rfl, .inl hpc⟩)⟩
  · rw [if_neg hok]
    exact Turn.goOn s n tick action hpc

theorem Turn.ofRunOnly {ok : Bool} (hissues : ok = true → Issues tick action statement) :
    Turn s n tick action (s.run statement ok).2 := by
  unfold State.run
  by_cases hok : ok = true
  · rw [if_pos hok]
    exact ⟨rfl, .inr ⟨statement, hissues hok, rfl⟩, .inl rfl⟩
  · rw [if_neg hok]
    exact Turn.none s n tick action

theorem plan_turn (scope : Scope) (scopes : List Scope) :
    Turn s n tick action (s.plan n tick scope scopes).2 := by
  unfold State.plan
  split
  · exact Turn.goOn s n tick action (nil_subset _)
  · rename_i plans hplans
    refine ⟨rfl, .inl rfl, .inr (.inr ⟨_, rfl, .inr ⟨scope, ?_⟩⟩)⟩
    rw [hplans, pending_nextPlan]

end

variable {scopes : List Scope} {scope : Scope} {planTime : Time} {plans : List Time}

section

variable (s : State) (n : Nat) (tick : Tick)
include s n tick

theorem insert_turn (action : Action) (id leaseToken : Uuid) (ok : Bool)
    (hpc : tick.pc = .inserting scopes scope planTime plans) :
    Turn s n tick action (s.insert n tick scopes scope planTime plans id leaseToken ok).2 := by
  have hissues : ok = true → Issues tick action
      (.claimInsert tick.job scope planTime tick.now tick.runnerId id leaseToken) :=
    fun _ => ⟨rfl, rfl, scopes, plans, hpc⟩
  have hrest : plans ⊆ tick.pc.pending := by
    rw [hpc]
    exact subset_cons_self planTime plans
  unfold State.insert
  dsimp only
  split
  · exact Turn.ofRun s n tick action hissues hrest
  · apply Turn.ofRun s n tick action hissues
    rw [hpc]
    exact Subset.refl _
  · apply Turn.ofRun s n tick action hissues
    rw [pending_nextPlan]
    exact hrest

theorem steal_turn (leaseToken : Uuid) (ok : Bool)
    (hpc : tick.pc = .stealing scopes scope planTime plans) :
    Turn s n tick (.steal n leaseToken ok)
      (s.steal n tick scopes scope planTime plans leaseToken ok).2 := by
  have hissues : ok = true → Issues tick (.steal n leaseToken ok)
      (.claimSteal tick.job scope planTime tick.now tick.runnerId leaseToken) := by
    intro hok
    rw [hok]
    exact ⟨rfl, rfl, ⟨scopes, plans, hpc⟩, n, rfl⟩
  have hrest : plans ⊆ tick.pc.pending := by
    rw [hpc]
    exact subset_cons_self planTime plans
  have hnext : (nextPlan scopes scope plans).pending ⊆ tick.pc.pending := by
    rw [pending_nextPlan]
    exact hrest
  unfold State.steal
  dsimp only
  split
  · split
    · exact Turn.ofRun s n tick _ hissues hrest
    · exact Turn.ofRun s n tick _ hissues hnext
  · exact Turn.ofRun s n tick _ hissues hnext

theorem finish_turn (action : Action) {claim : Claim} (outcome : Outcome) (durationMs : Int)
    (localNow : Option Time) (ok : Bool)
    (hpc : tick.pc = .running scopes scope planTime plans claim) :
    Turn s n tick action
      (s.finish n tick scopes scope plans claim outcome durationMs localNow ok).2 := by
  apply Turn.ofRun
  · intro _
    cases outcome with
    | succeeded res => exact trivial
    | failed error message => exact ⟨error, rfl⟩
  · rw [pending_nextPlan, hpc]
    exact Subset.refl _

theorem stepTick_turn (action : Action) (hn : action.tick? = some n) :
    Turn s n tick action (s.stepTick n tick action).2 := by
  unfold State.stepTick
  split
  · split
    · split
      · exact ⟨rfl, .inl rfl, .inr (.inl rfl)⟩
      · exact Turn.goOn s n tick _ (nil_subset _)
    · exact Turn.none s n tick _
  · split
    · apply Turn.ofRun
      · intro _
        exact ⟨rfl, rfl⟩
      · exact nil_subset _
    · exact Turn.none s n tick _
  · split
    · split
      · exact plan_turn s n tick _ _ _
      · exact Turn.goOn s n tick _ (nil_subset _)
    · exact Turn.none s n tick _
  · split
    · rename_i hpc
      exact insert_turn s n tick _ _ _ _ hpc
    · exact Turn.none s n tick _
  · split
    · rename_i hpc
      injection hn with hn
      rw [hn]
      exact steal_turn s n tick _ _ hpc
    · exact Turn.none s n tick _
  · split
    · apply Turn.ofRunOnly
      intro _
      exact trivial
    · exact Turn.none s n tick _
  · split
    · rename_i hpc
      exact finish_turn s n tick _ _ _ _ _ hpc
    · exact Turn.none s n tick _
  · exact ⟨rfl, .inl rfl, .inr (.inl rfl)⟩
  · exact Turn.none s n tick _

end

/-- All that a step can do. -/
theorem step_cases (s : State) (action : Action) :
    (step s action).2 = s ∨
    (∃ now, action = .setClock now ∧ (step s action).2 = { s with clock := now }) ∨
    (∃ n job now runnerId, action = .begin n job now runnerId ∧
      (step s action).2 = { s with ticks := s.ticks.set n ⟨job, now, runnerId, .scoping⟩ }) ∨
    (∃ n tick, action.tick? = some n ∧ s.ticks.get? n = some tick ∧
      Turn s n tick action (step s action).2) := by
  unfold step
  split
  · rename_i n hn
    cases htick : s.ticks.get? n with
    | none => exact .inl rfl
    | some tick => exact .inr (.inr (.inr ⟨n, tick, hn, htick, stepTick_turn s n tick action hn⟩))
  · split
    · exact .inr (.inl ⟨_, rfl, rfl⟩)
    · exact .inr (.inr (.inl ⟨_, _, _, _, rfl, rfl⟩))
    · exact .inl rfl

end ClawMessenger.Ports.SchedulerManager
