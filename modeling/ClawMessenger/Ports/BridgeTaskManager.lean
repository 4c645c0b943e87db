import ClawMessenger.Ports.BridgeTask
import ClawMessenger.Verified.GoText
import ClawMessenger.Verified.Lookup
import ClawMessenger.Verified.Machine

/-!
# The task manager of the Go bridge

`Start`, `Fence` and `Cancel` run concurrently with each other and with one
goroutine for each task.  Each takes the manager's lock in short sections; what
lies between two sections may be interleaved with anything.  A call is a
program counter here (`StartPc`, `FencePc`, `RunnerPc`) and every section is
one action of `step`.  `pruneExpired` is called at the beginning of each entry
point and is an action of its own.

What the environment decides is part of an action: clock readings, the outcome
of the slow path of `Start` (work directory, runtime, model), what a backend
reports, and which of two ready channels a `select` takes.

The log is not part of the source and nothing reads it.
-/

namespace ClawMessenger.Ports.Bridge

open Verified
open GoText (isSpace)

structure BridgeTaskRequest where
  requestId : GoString
  model : GoString
  runtimeId : GoString
  conversationKey : GoString
  resumeSessionId : GoString
  workDir : GoString
  prompt : GoString
deriving DecidableEq, Repr

inductive BridgeTaskError where
  | invalidRequest
  | invalidWorkDir
  | unknownRuntime
  | runtimeNotReady
  | unknown
  | requestConflict
  | requestFenced
  | requestExpired
  | stopUnconfirmed
  | context

inductive FenceAnswer where
  | notStarted
  | alreadyTerminal
  | cancelled
deriving DecidableEq, Repr

structure Deps where
  eventLimit : Nat
  terminalTTL : Int
  classify : GoString → Reason
  redact : GoString → GoString

/-! ## Request ids -/

def isHexDigit (c : Char) : Bool := ('0' ≤ c && c ≤ '9') || ('a' ≤ c && c ≤ 'f')

def hexValue (c : Char) : Nat :=
  if c ≤ '9' then c.toNat - '0'.toNat else c.toNat - 'a'.toNat + 10

/-- The group of `bridgeRequestIDPattern`: the digits of the issue time. -/
def issuedDigits? (id : GoString) : Option GoString :=
  let digits := (id.drop 5).takeWhile isHexDigit
  let rest := (id.drop 5).dropWhile isHexDigit
  if id.take 5 = go "task_" ∧ digits ≠ [] ∧ rest.head? = some '_' ∧ rest.tail ≠ [] ∧
      rest.tail.all isHexDigit = true then
    some digits
  else
    none

/-- `strconv.ParseInt(digits, 16, 64)`. -/
def parseHex? (digits : GoString) : Option Nat :=
  let value := digits.foldl (fun value c => value * 16 + hexValue c) 0
  if value < 2 ^ 63 then some value else none

def millisecond : Int := 1000000

def bridgeRequestLifetime : Int := 24 * 60 * 60 * 1000 * millisecond

/-- The issue time an id carries, in milliseconds. -/
def issued? (id : GoString) : Option Nat :=
  if 128 < byteLen id then none else (issuedDigits? id).bind parseHex?

/-- `validRequestID`: the error it returns, `none` for `nil`. -/
def validRequestID (now : Int) (id : GoString) : Option BridgeTaskError :=
  match issued? id with
  | none => some .invalidRequest
  | some issued =>
    if (issued : Int) ≤ 0 ∨ now + 5 * 60 * 1000 * millisecond < issued * millisecond ∨
        issued * millisecond + bridgeRequestLifetime ≤ now then
      some .requestExpired
    else
      none

/-! ## Checks of a request -/

def isControl (c : Char) : Bool := c.toNat < 0x20 || (0x7F ≤ c.toNat && c.toNat < 0xA0)

def invalidModel (model : GoString) : Bool :=
  model ≠ [] && (256 < byteLen model || model.count '/' ≠ 1 || model.head? = some '/'
    || model.getLast? = some '/'
    || model.any fun c => isSpace c || isControl c || c.toNat == 0xFEFF)

/-- `strings.TrimSpace(s) == ""`. -/
def blank (s : GoString) : Bool := s.all isSpace

/-- What `Start` checks before it takes the lock. -/
def requestError (now : Int) (req : BridgeTaskRequest) : Option BridgeTaskError :=
  if invalidModel req.model then
    some .invalidRequest
  else if req.requestId ≠ [] ∧ (validRequestID now req.requestId).isSome then
    validRequestID now req.requestId
  else if blank req.runtimeId || blank req.conversationKey || blank req.workDir
      || blank req.prompt then
    some .invalidRequest
  else
    none

/-! ## State -/

/-- A conversation's gate: `gate` is whether the token is in the channel. -/
structure BridgeConversation where
  gate : Bool
  refs : Int
deriving DecidableEq, Repr

/-- The goroutine of a task. -/
inductive RunnerPc where
  /-- Before `acquireConversation`. -/
  | spawned
  /-- In the `select` of `acquireConversation`. -/
  | waiting (conversation : Nat)
  /-- `ctx.Done()` was taken, `releaseConversation` is next. -/
  | leaving (conversation : Nat)
  /-- The wait was given up, publishing `cancelled` is next. -/
  | refused
  /-- The token was taken. -/
  | acquired (conversation : Nat)
  /-- In `execute`, publishing `started` is next. -/
  | entered (conversation : Nat)
  /-- In `executeAttempt`. -/
  | executing (conversation : Nat) (terminalStatus : GoString)
      (tools : List (GoString × GoString))
  /-- The terminal event is decided, publishing it is next. -/
  | finishing (conversation : Nat) (event : BridgeTaskEvent)
  /-- The deferred release: the token is given back next. -/
  | releasing (conversation : Nat)
  /-- The token is back, `releaseConversation` is next. -/
  | released (conversation : Nat)
  | ended

structure Runner where
  runtimeId : GoString
  conversationKey : GoString
  pc : RunnerPc

/-- The key of the conversation, `RuntimeID + "\x00" + ConversationKey`. -/
def Runner.key (runner : Runner) : GoString :=
  runner.runtimeId ++ [Char.ofNat 0] ++ runner.conversationKey

inductive StartPc where
  | called
  | validated
  /-- After the first look at the request tables. -/
  | preparing
  | prepared
  | returned (outcome : Except BridgeTaskError GoString)

structure StartCall where
  req : BridgeTaskRequest
  pc : StartPc

inductive FencePc where
  | called
  | validated
  | found (task : Nat)
  | read (task : Nat) (wasTerminal : Bool)
  | signalled (task : Nat) (wasTerminal : Bool)
  /-- `task` is the one that was found. -/
  | returned (task : Option Nat) (outcome : Except BridgeTaskError FenceAnswer)

structure FenceCall where
  id : GoString
  /-- How much had been logged when the call began. -/
  begun : Nat
  pc : FencePc

inductive Entry where
  /-- A task was made for a request with an id. -/
  | created (id : GoString) (req : BridgeTaskRequest) (task : Nat)
  | fenceReturned (id : GoString) (answer : FenceAnswer)
  /-- A task's terminal event was published. -/
  | ended (task : Nat) (event : BridgeTaskEvent)
deriving DecidableEq

structure Manager where
  clock : Int
  rootCancelled : Bool := false
  /-- Task objects, by the order they were made. -/
  heap : OrderedMap Nat BridgeTask := ∅
  nextTask : Nat := 0
  tasks : OrderedMap GoString Nat := ∅
  requests : OrderedMap GoString BridgeTaskRequest := ∅
  fences : OrderedMap GoString Unit := ∅
  /-- Gate objects, by the order they were made. -/
  gates : OrderedMap Nat BridgeConversation := ∅
  nextGate : Nat := 0
  conversations : OrderedMap GoString Nat := ∅
  runners : OrderedMap Nat Runner := ∅
  starts : OrderedMap Nat StartCall := ∅
  nextStart : Nat := 0
  fenceCalls : OrderedMap Nat FenceCall := ∅
  nextFence : Nat := 0
  log : List Entry := []

/-- `ctx.Err() != nil` for a task's context. -/
def Manager.contextCancelled (m : Manager) (n : Nat) : Bool :=
  m.rootCancelled || ((m.heap.get? n).map BridgeTask.cancelled).getD false

/-! ## Sections of `Start` -/

section

variable (m : Manager)

def Manager.setStart (call : Nat) (c : StartCall) (pc : StartPc) : Manager :=
  { m with starts := m.starts.set call { c with pc := pc } }

/-- The first look at the request tables. -/
def Manager.startCheck (call : Nat) (c : StartCall) : Manager :=
  if c.req.requestId = [] then
    m.setStart call c .preparing
  else if m.fences.has c.req.requestId then
    m.setStart call c (.returned (.error .requestFenced))
  else
    match m.requests.get? c.req.requestId with
    | some previous =>
      if previous ≠ c.req then m.setStart call c (.returned (.error .requestConflict))
      else m.setStart call c (.returned (.ok c.req.requestId))
    | none => m.setStart call c .preparing

/-- The request tables are full. -/
def Manager.requestsFull (req : BridgeTaskRequest) : Bool :=
  2048 ≤ m.requests.size + m.fences.size
    || 32 * 2 ^ 20 < byteLen req.prompt + m.requests.total fun previous => byteLen previous.prompt

/-- A task is made and its goroutine is started. -/
def Manager.spawn (deps : Deps) (req : BridgeTaskRequest) (taskId : GoString) :
    Manager :=
  { m with
    heap := m.heap.set m.nextTask { id := taskId, eventLimit := deps.eventLimit }
    nextTask := m.nextTask + 1
    tasks := m.tasks.set taskId m.nextTask
    runners := m.runners.set m.nextTask ⟨req.runtimeId, req.conversationKey, .spawned⟩ }

/-- A request with an id is kept. -/
def Manager.keep (req : BridgeTaskRequest) (task : Nat) : Manager :=
  { m with
    requests := m.requests.set req.requestId req
    log := m.log ++ [Entry.created req.requestId req task] }

/-- The last section of `Start`. -/
def Manager.startCommit (deps : Deps) (call : Nat) (c : StartCall)
    (newTaskId : GoString) : Manager :=
  if c.req.requestId = [] then
    (m.spawn deps c.req newTaskId).setStart call c (.returned (.ok newTaskId))
  else if m.fences.has c.req.requestId then
    m.setStart call c (.returned (.error .requestFenced))
  else
    match m.requests.get? c.req.requestId with
    | some previous =>
      if previous ≠ c.req then m.setStart call c (.returned (.error .requestConflict))
      else m.setStart call c (.returned (.ok c.req.requestId))
    | none =>
      if m.requestsFull c.req then
        m.setStart call c (.returned (.error .invalidRequest))
      else
        ((m.spawn deps c.req c.req.requestId).keep c.req m.nextTask).setStart call c
          (.returned (.ok c.req.requestId))

end

/-! ## `pruneExpired` -/

/-- The zero `time.Time`, the first moment of the year 1. -/
def zeroTime : Int := -62135596800 * 1000 * millisecond

/-- `terminal` and its time to live is over, `now` being read before the lock. -/
def expired (deps : Deps) (now : Int) (task : BridgeTask) : Bool :=
  task.terminal && decide (task.terminalAt ≠ zeroTime)
    && decide (task.terminalAt + deps.terminalTTL ≤ now)

/-- Whether `pruneExpired` drops the entries of an id in the table of tasks. -/
def Manager.prunes (m : Manager) (deps : Deps) (now : Int) (id : GoString) : Bool :=
  (((m.tasks.get? id).bind m.heap.get?).map (expired deps now)).getD false
    && (((m.requests.get? id).map fun req => req.requestId == []).getD true
      || (validRequestID m.clock id).isSome)

def Manager.pruneExpired (m : Manager) (deps : Deps) (now : Int) : Manager :=
  { m with
    tasks := m.tasks.filter fun id _ => !m.prunes deps now id
    requests := m.requests.filter fun id _ => !m.prunes deps now id
    fences := m.fences.filter fun id _ => (validRequestID m.clock id).isNone }

/-! ## Sections of `Fence` and `Cancel` -/

section

variable (m : Manager) (call : Nat) (c : FenceCall)

def Manager.setFence (pc : FencePc) : Manager :=
  { m with fenceCalls := m.fenceCalls.set call { c with pc := pc } }

def Manager.fenceReturns (task : Option Nat)
    (answer : FenceAnswer) : Manager :=
  { m.setFence call c (.returned task (.ok answer)) with
    log := m.log ++ [Entry.fenceReturned c.id answer] }

/-- The section of `Fence` under the manager's lock. -/
def Manager.fenceLookup : Manager :=
  match m.tasks.get? c.id with
  | some n => m.setFence call c (.found n)
  | none =>
    if !m.fences.has c.id && decide (2048 ≤ m.requests.size + m.fences.size) then
      m.setFence call c (.returned none (.error .invalidRequest))
    else
      { m with fences := m.fences.set c.id () }.fenceReturns call c none .notStarted

end

/-- `task.cancel()`. -/
def Manager.cancelTask (m : Manager) (n : Nat) : Manager :=
  match m.heap.get? n with
  | some task => { m with heap := m.heap.set n { task with cancelled := true } }
  | none => m

/-- `Fence` after `done` was closed. -/
def Manager.fenceAnswer (m : Manager) (call : Nat) (c : FenceCall) (n : Nat)
    (wasTerminal : Bool) : Manager :=
  match m.heap.get? n with
  | some task =>
    if task.done then
      if (task.terminalEvent.bind BridgeTaskEvent.error).any
          fun error => error.category == go "stop_unconfirmed" then
        m.setFence call c (.returned (some n) (.error .stopUnconfirmed))
      else if wasTerminal then
        m.fenceReturns call c (some n) .alreadyTerminal
      else
        m.fenceReturns call c (some n) .cancelled
    else
      m
  | none => m

/-! ## Sections of a task's goroutine -/

def Manager.setRunner (m : Manager) (n : Nat) (runner : Runner) (pc : RunnerPc) : Manager :=
  { m with runners := m.runners.set n { runner with pc := pc } }

/-- `acquireConversation` under the lock. -/
def Manager.acquireConversation (m : Manager) (n : Nat) (runner : Runner) : Manager :=
  match (m.conversations.get? runner.key).bind fun g => (m.gates.get? g).map (g, ·) with
  | some (g, conversation) =>
    { m.setRunner n runner (.waiting g) with
      gates := m.gates.set g { conversation with refs := conversation.refs + 1 } }
  | none =>
    { m.setRunner n runner (.waiting m.nextGate) with
      gates := m.gates.set m.nextGate ⟨false, 1⟩
      nextGate := m.nextGate + 1
      conversations := m.conversations.set runner.key m.nextGate }

def Manager.releaseConversation (m : Manager) (key : GoString) (g : Nat) : Manager :=
  match m.gates.get? g with
  | some conversation =>
    let refs := conversation.refs - 1
    let m' := { m with gates := m.gates.set g { conversation with refs := refs } }
    if refs = 0 ∧ m.conversations.get? key = some g then
      { m' with conversations := m.conversations.erase key }
    else
      m'
  | none => m

/-- The token goes into or comes out of a gate. -/
def Manager.setGate (m : Manager) (g : Nat) (gate : Bool) : Manager :=
  match m.gates.get? g with
  | some conversation => { m with gates := m.gates.set g { conversation with gate := gate } }
  | none => m

/-- `task.publish`. -/
def Manager.publish (m : Manager) (n : Nat) (event : BridgeTaskEvent) : Manager :=
  match m.heap.get? n with
  | some task =>
    { m with
      heap := m.heap.set n (task.publish m.clock event)
      log :=
        if !task.terminal && event.terminal then
          m.log ++ [Entry.ended n (task.numbered m.clock event)]
        else
          m.log }
  | none => m

/-! ## What a backend reports -/

inductive MessageType where
  | text
  | toolUse
  | toolResult
  | status
  | other

structure Message where
  type : MessageType
  content : GoString := []
  tool : GoString := []
  callId : GoString := []
  output : GoString := []
  status : GoString := []
  sessionId : GoString := []

def bridgeTaskToolOutputLimit : Nat := 8192

/-- `truncateBridgeTaskUTF8`: the longest prefix of whole characters within the limit. -/
def truncateBridgeTaskUTF8 : GoString → Nat → GoString
  | [], _ => []
  | c :: rest, limit =>
    if c.utf8Size ≤ limit then c :: truncateBridgeTaskUTF8 rest (limit - c.utf8Size) else []

/-- The event of a backend message, and the tools used so far. -/
def messageEvent (deps : Deps) (tools : List (GoString × GoString)) (message : Message) :
    Option BridgeTaskEvent × List (GoString × GoString) :=
  match message.type with
  | .text => (some { type := .textDelta, text := message.content }, tools)
  | .toolUse =>
    (some { type := .toolStarted, tool := message.tool, callId := message.callId },
      (message.callId, message.tool) :: tools)
  | .toolResult =>
    (some { type := .toolFinished
            tool := if message.tool = [] then (tools.lookup message.callId).getD [] else message.tool
            callId := message.callId
            output := truncateBridgeTaskUTF8 (deps.redact message.output)
              bridgeTaskToolOutputLimit }, tools)
  | .status =>
    (some { type := .status, status := message.status, sessionId := message.sessionId }, tools)
  | .other => (none, tools)

theorem messageEvent_not_terminal (deps : Deps) (tools : List (GoString × GoString))
    (message : Message) {event : BridgeTaskEvent}
    (h : (messageEvent deps tools message).1 = some event) : event.terminal = false := by
  unfold messageEvent at h
  cases htype : message.type <;> rw [htype] at h
  all_goals dsimp only at h
  case other => cases h
  all_goals
    rw [← Option.some.inj h]
    rfl

/-- How the attempts of `execute` end. -/
inductive Outcome where
  | result (result : Result)
  | error (raw : GoString)

def outcomeEvent (deps : Deps) (cancelled : Bool) (terminalStatus : GoString) :
    Outcome → BridgeTaskEvent
  | .result result => finishResult deps.classify cancelled result terminalStatus
  | .error raw => finishError deps.classify cancelled raw terminalStatus

theorem outcomeEvent_terminal (deps : Deps) (cancelled : Bool) (terminalStatus : GoString)
    (outcome : Outcome) : (outcomeEvent deps cancelled terminalStatus outcome).terminal = true := by
  cases outcome with
  | result result => exact finishResult_terminal ..
  | error raw => exact finishError_terminal ..

/-! ## Steps -/

inductive Action where
  /-- Time passes: the clock reads `now` or stays. -/
  | tick (now : Int)
  | cancelRoot
  | prune (now : Int)
  | start (req : BridgeTaskRequest)
  | startValidate (call : Nat)
  | startCheck (call : Nat)
  /-- The slow path of `Start` ends, with an error or with a work directory and a runtime. -/
  | startPrepare (call : Nat) (error : Option BridgeTaskError)
  | startCommit (call : Nat) (newTaskId : GoString)
  | fence (id : GoString)
  | fenceValidate (call : Nat)
  | fenceLookup (call : Nat)
  | fenceRead (call : Nat)
  | fenceCancel (call : Nat)
  | fenceGiveUp (call : Nat)
  | fenceAnswer (call : Nat)
  | cancel (id : GoString)
  | acquire (task : Nat)
  | takeToken (task : Nat)
  | giveUp (task : Nat)
  | leave (task : Nat)
  | publishRefused (task : Nat)
  | checkContext (task : Nat)
  | publishStarted (task : Nat)
  | message (task : Nat) (message : Message)
  /-- The backend's resumed session was rejected: a second attempt without it. -/
  | retry (task : Nat)
  | outcome (task : Nat) (outcome : Outcome)
  | publishTerminal (task : Nat)
  | returnToken (task : Nat)
  | release (task : Nat)

def stepStart (deps : Deps) (m : Manager) (call : Nat) (c : StartCall) : Action → Manager
  | .startValidate _ =>
    match c.pc with
    | .called =>
      m.setStart call c (match requestError m.clock c.req with
        | some error => .returned (.error error)
        | none => .validated)
    | _ => m
  | .startCheck _ =>
    match c.pc with
    | .validated => m.startCheck call c
    | _ => m
  | .startPrepare _ error =>
    match c.pc with
    | .preparing =>
      m.setStart call c (match error with
        | some error => .returned (.error error)
        | none => .prepared)
    | _ => m
  | .startCommit _ newTaskId =>
    match c.pc with
    | .prepared => m.startCommit deps call c newTaskId
    | _ => m
  | _ => m

def stepFence (m : Manager) (call : Nat) (c : FenceCall) : Action → Manager
  | .fenceValidate _ =>
    match c.pc with
    | .called =>
      m.setFence call c (match validRequestID m.clock c.id with
        | some error => .returned none (.error error)
        | none => .validated)
    | _ => m
  | .fenceLookup _ =>
    match c.pc with
    | .validated => m.fenceLookup call c
    | _ => m
  | .fenceRead _ =>
    match c.pc with
    | .found n =>
      m.setFence call c (.read n (((m.heap.get? n).map BridgeTask.terminal).getD false))
    | _ => m
  | .fenceCancel _ =>
    match c.pc with
    | .read n wasTerminal => (m.cancelTask n).setFence call c (.signalled n wasTerminal)
    | _ => m
  | .fenceGiveUp _ =>
    match c.pc with
    | .signalled n _ => m.setFence call c (.returned (some n) (.error .context))
    | _ => m
  | .fenceAnswer _ =>
    match c.pc with
    | .signalled n wasTerminal => m.fenceAnswer call c n wasTerminal
    | _ => m
  | _ => m

def stepRunner (deps : Deps) (m : Manager) (n : Nat) (runner : Runner) : Action → Manager
  | .acquire _ =>
    match runner.pc with
    | .spawned => m.acquireConversation n runner
    | _ => m
  | .takeToken _ =>
    match runner.pc with
    | .waiting g =>
      if (m.gates.get? g).map BridgeConversation.gate = some false then
        (m.setGate g true).setRunner n runner (.acquired g)
      else
        m
    | _ => m
  | .giveUp _ =>
    match runner.pc with
    | .waiting g => if m.contextCancelled n then m.setRunner n runner (.leaving g) else m
    | _ => m
  | .leave _ =>
    match runner.pc with
    | .leaving g => (m.releaseConversation runner.key g).setRunner n runner .refused
    | _ => m
  | .publishRefused _ =>
    match runner.pc with
    | .refused => (m.publish n { type := .cancelled }).setRunner n runner .ended
    | _ => m
  | .checkContext _ =>
    match runner.pc with
    | .acquired g =>
      m.setRunner n runner
        (if m.contextCancelled n then .finishing g { type := .cancelled } else .entered g)
    | _ => m
  | .publishStarted _ =>
    match runner.pc with
    | .entered g => (m.publish n { type := .started }).setRunner n runner (.executing g [] [])
    | _ => m
  | .message _ message =>
    match runner.pc with
    | .executing g terminalStatus tools =>
      match messageEvent deps tools message with
      | (some event, tools) =>
        (m.publish n event).setRunner n runner (.executing g terminalStatus tools)
      | (none, _) => m
    | _ => m
  | .retry _ =>
    match runner.pc with
    | .executing g [] _ =>
      if m.contextCancelled n then m
      else m.setRunner n runner (.executing g (go "resume_invalidated") [])
    | _ => m
  | .outcome _ outcome =>
    match runner.pc with
    | .executing g terminalStatus _ =>
      m.setRunner n runner
        (.finishing g (outcomeEvent deps (m.contextCancelled n) terminalStatus outcome))
    | _ => m
  | .publishTerminal _ =>
    match runner.pc with
    | .finishing g event => (m.publish n event).setRunner n runner (.releasing g)
    | _ => m
  -- the receive waits for a token
  | .returnToken _ =>
    match runner.pc with
    | .releasing g =>
      if (m.gates.get? g).map BridgeConversation.gate = some true then
        (m.setGate g false).setRunner n runner (.released g)
      else
        m
    | _ => m
  | .release _ =>
    match runner.pc with
    | .released g => (m.releaseConversation runner.key g).setRunner n runner .ended
    | _ => m
  | _ => m

/-- The call of `Start` an action belongs to. -/
def Action.start? : Action → Option Nat
  | .startValidate call => some call
  | .startCheck call => some call
  | .startPrepare call _ => some call
  | .startCommit call _ => some call
  | _ => none

def Action.fence? : Action → Option Nat
  | .fenceValidate call => some call
  | .fenceLookup call => some call
  | .fenceRead call => some call
  | .fenceCancel call => some call
  | .fenceGiveUp call => some call
  | .fenceAnswer call => some call
  | _ => none

/-- The task whose goroutine an action belongs to. -/
def Action.runner? : Action → Option Nat
  | .acquire task => some task
  | .takeToken task => some task
  | .giveUp task => some task
  | .leave task => some task
  | .publishRefused task => some task
  | .checkContext task => some task
  | .publishStarted task => some task
  | .message task _ => some task
  | .retry task => some task
  | .outcome task _ => some task
  | .publishTerminal task => some task
  | .returnToken task => some task
  | .release task => some task
  | _ => none

/-- Actions that belong to no call in progress and to no goroutine. -/
def stepOther (deps : Deps) (m : Manager) : Action → Manager
  | .tick now => { m with clock := max m.clock now }
  | .cancelRoot => { m with rootCancelled := true }
  | .prune now => m.pruneExpired deps (min now m.clock)
  | .start req =>
    { m with starts := m.starts.set m.nextStart ⟨req, .called⟩, nextStart := m.nextStart + 1 }
  | .fence id =>
    { m with
      fenceCalls := m.fenceCalls.set m.nextFence ⟨id, m.log.length, .called⟩
      nextFence := m.nextFence + 1 }
  | .cancel id =>
    match m.tasks.get? id with
    | some n => m.cancelTask n
    | none => m
  | _ => m

def step (deps : Deps) (m : Manager) (action : Action) : Unit × Manager :=
  match action.start? with
  | some call => ((), ((m.starts.get? call).map fun c => stepStart deps m call c action).getD m)
  | none =>
    match action.fence? with
    | some call => ((), ((m.fenceCalls.get? call).map fun c => stepFence m call c action).getD m)
    | none =>
      match action.runner? with
      | some n => ((), ((m.runners.get? n).map fun r => stepRunner deps m n r action).getD m)
      | none => ((), stepOther deps m action)

abbrev Run := Config Manager Action Unit

/-- A new manager, the clock reading `now`. -/
def start (now : Int) : Run := Machine.start { clock := now }

def anything : Run → Action → Prop := fun _ _ => True

/-! ## What a goroutine leaves alone -/

/-- The tables of tasks, requests and fences and the calls are as they were. -/
structure SameTables (m m' : Manager) : Prop where
  clock : m'.clock = m.clock
  nextTask : m'.nextTask = m.nextTask
  tasks : m'.tasks = m.tasks
  requests : m'.requests = m.requests
  fences : m'.fences = m.fences
  starts : m'.starts = m.starts
  fenceCalls : m'.fenceCalls = m.fenceCalls

theorem SameTables.refl (m : Manager) : SameTables m m := ⟨rfl, rfl, rfl, rfl, rfl, rfl, rfl⟩

variable {m m' : Manager}

theorem SameTables.trans {m'' : Manager} (h : SameTables m m') (h' : SameTables m' m'') :
    SameTables m m'' :=
  ⟨h'.clock.trans h.clock, h'.nextTask.trans h.nextTask, h'.tasks.trans h.tasks,
    h'.requests.trans h.requests, h'.fences.trans h.fences, h'.starts.trans h.starts,
    h'.fenceCalls.trans h.fenceCalls⟩

theorem sameTables_setRunner (m : Manager) (n : Nat) (runner : Runner) (pc : RunnerPc) :
    SameTables m (m.setRunner n runner pc) := ⟨rfl, rfl, rfl, rfl, rfl, rfl, rfl⟩

theorem sameTables_setGate (m : Manager) (g : Nat) (gate : Bool) :
    SameTables m (m.setGate g gate) := by
  unfold Manager.setGate
  split
  · exact ⟨rfl, rfl, rfl, rfl, rfl, rfl, rfl⟩
  · exact SameTables.refl m

theorem sameTables_acquireConversation (m : Manager) (n : Nat) (runner : Runner) :
    SameTables m (m.acquireConversation n runner) := by
  unfold Manager.acquireConversation
  split <;> exact ⟨rfl, rfl, rfl, rfl, rfl, rfl, rfl⟩

theorem sameTables_releaseConversation (m : Manager) (key : GoString) (g : Nat) :
    SameTables m (m.releaseConversation key g) := by
  unfold Manager.releaseConversation
  split
  · dsimp only
    split <;> exact ⟨rfl, rfl, rfl, rfl, rfl, rfl, rfl⟩
  · exact SameTables.refl m

theorem sameTables_publish (m : Manager) (n : Nat) (event : BridgeTaskEvent) :
    SameTables m (m.publish n event) := by
  unfold Manager.publish
  split
  · exact ⟨rfl, rfl, rfl, rfl, rfl, rfl, rfl⟩
  · exact SameTables.refl m

theorem sameTables_cancelTask (m : Manager) (n : Nat) : SameTables m (m.cancelTask n) := by
  unfold Manager.cancelTask
  split
  · exact ⟨rfl, rfl, rfl, rfl, rfl, rfl, rfl⟩
  · exact SameTables.refl m

/-! ## What a goroutine does -/

/-- What one step of a task's goroutine does, and where the goroutine was. -/
inductive Turn (deps : Deps) (m : Manager) (n : Nat) (runner : Runner) (action : Action) :
    Manager → Prop
  | acquire (hpc : runner.pc = .spawned) : Turn deps m n runner action (m.acquireConversation n runner)
  | take (g : Nat) (hpc : runner.pc = .waiting g)
      (hgate : (m.gates.get? g).map BridgeConversation.gate = some false) :
      Turn deps m n runner action ((m.setGate g true).setRunner n runner (.acquired g))
  | giveUp (g : Nat) (hpc : runner.pc = .waiting g) (hcancelled : m.contextCancelled n = true) :
      Turn deps m n runner action (m.setRunner n runner (.leaving g))
  | leave (g : Nat) (hpc : runner.pc = .leaving g) :
      Turn deps m n runner action ((m.releaseConversation runner.key g).setRunner n runner .refused)
  | refused (hpc : runner.pc = .refused) :
      Turn deps m n runner action ((m.publish n { type := .cancelled }).setRunner n runner .ended)
  | skip (g : Nat) (hpc : runner.pc = .acquired g) (hcancelled : m.contextCancelled n = true) :
      Turn deps m n runner action (m.setRunner n runner (.finishing g { type := .cancelled }))
  | enter (g : Nat) (hpc : runner.pc = .acquired g) :
      Turn deps m n runner action (m.setRunner n runner (.entered g))
  | started (g : Nat) (hpc : runner.pc = .entered g) :
      Turn deps m n runner action
        ((m.publish n { type := .started }).setRunner n runner (.executing g [] []))
  | message (g : Nat) (status : GoString) (tools tools' : List (GoString × GoString))
      (hpc : runner.pc = .executing g status tools) (event : BridgeTaskEvent)
      (hevent : event.terminal = false) :
      Turn deps m n runner action ((m.publish n event).setRunner n runner (.executing g status tools'))
  | retry (g : Nat) (tools : List (GoString × GoString)) (hpc : runner.pc = .executing g [] tools) :
      Turn deps m n runner action (m.setRunner n runner (.executing g (go "resume_invalidated") []))
  | outcome (g : Nat) (status : GoString) (tools : List (GoString × GoString))
      (hpc : runner.pc = .executing g status tools) (task : Nat) (outcome : Outcome)
      (haction : action = .outcome task outcome) :
      Turn deps m n runner action (m.setRunner n runner
        (.finishing g (outcomeEvent deps (m.contextCancelled n) status outcome)))
  | finish (g : Nat) (event : BridgeTaskEvent) (hpc : runner.pc = .finishing g event) :
      Turn deps m n runner action ((m.publish n event).setRunner n runner (.releasing g))
  | giveBack (g : Nat) (hpc : runner.pc = .releasing g)
      (hgate : (m.gates.get? g).map BridgeConversation.gate = some true) :
      Turn deps m n runner action ((m.setGate g false).setRunner n runner (.released g))
  | release (g : Nat) (hpc : runner.pc = .released g) :
      Turn deps m n runner action ((m.releaseConversation runner.key g).setRunner n runner .ended)

theorem stepRunner_turn (deps : Deps) (m : Manager) (n : Nat) (runner : Runner) (action : Action) :
    stepRunner deps m n runner action = m ∨
      Turn deps m n runner action (stepRunner deps m n runner action) := by
  cases action <;> unfold stepRunner <;> dsimp only <;> try exact .inl rfl
  case acquire =>
      split
      · exact .inr (.acquire ‹_›)
      · exact .inl rfl
  case takeToken =>
      split
      · split
        · exact .inr (.take _ ‹_› ‹_›)
        · exact .inl rfl
      · exact .inl rfl
  case giveUp =>
      split
      · split
        · exact .inr (.giveUp _ ‹_› ‹_›)
        · exact .inl rfl
      · exact .inl rfl
  case leave =>
      split
      · exact .inr (.leave _ ‹_›)
      · exact .inl rfl
  case publishRefused =>
      split
      · exact .inr (.refused ‹_›)
      · exact .inl rfl
  case checkContext =>
      split
      · split
        · exact .inr (.skip _ ‹_› ‹_›)
        · exact .inr (.enter _ ‹_›)
      · exact .inl rfl
  case publishStarted =>
      split
      · exact .inr (.started _ ‹_›)
      · exact .inl rfl
  case message message =>
      split
      · rename_i g status tools hpc
        cases hevent : messageEvent deps tools message with
        | mk event tools' =>
          cases event with
          | none => exact .inl rfl
          | some event =>
            refine .inr (.message g status tools tools' hpc event ?_)
            apply messageEvent_not_terminal deps tools message
            rw [hevent]
      · exact .inl rfl
  case retry =>
      split
      · split
        · exact .inl rfl
        · exact .inr (.retry _ _ ‹_›)
      · exact .inl rfl
  case outcome =>
      split
      · exact .inr (.outcome _ _ _ ‹_› _ _ rfl)
      · exact .inl rfl
  case publishTerminal =>
      split
      · exact .inr (.finish _ _ ‹_›)
      · exact .inl rfl
  case returnToken =>
      split
      · split
        · exact .inr (.giveBack _ ‹_› ‹_›)
        · exact .inl rfl
      · exact .inl rfl
  case release =>
      split
      · exact .inr (.release _ ‹_›)
      · exact .inl rfl

variable {runner : Runner} {action : Action}

theorem Turn.sameTables {deps : Deps} {n : Nat} (h : Turn deps m n runner action m') :
    SameTables m m' := by
  have hset : ∀ {m₁ : Manager} (pc : RunnerPc), SameTables m m₁ →
      SameTables m (m₁.setRunner n runner pc) := fun pc h₁ => h₁.trans (sameTables_setRunner _ n _ pc)
  cases h with
  | acquire => exact sameTables_acquireConversation m n runner
  | take g => exact hset _ (sameTables_setGate m g true)
  | giveUp => exact hset _ (SameTables.refl m)
  | leave g => exact hset _ (sameTables_releaseConversation m runner.key g)
  | refused => exact hset _ (sameTables_publish m n _)
  | skip | enter => exact hset _ (SameTables.refl m)
  | started | message => exact hset _ (sameTables_publish m n _)
  | retry | outcome => exact hset _ (SameTables.refl m)
  | finish => exact hset _ (sameTables_publish m n _)
  | giveBack g => exact hset _ (sameTables_setGate m g false)
  | release g => exact hset _ (sameTables_releaseConversation m runner.key g)

/-! ## What a goroutine logs -/

theorem log_setGate (m : Manager) (g : Nat) (gate : Bool) : (m.setGate g gate).log = m.log := by
  unfold Manager.setGate
  split <;> rfl

theorem log_acquireConversation (m : Manager) (n : Nat) (runner : Runner) :
    (m.acquireConversation n runner).log = m.log := by
  unfold Manager.acquireConversation
  split <;> rfl

theorem log_releaseConversation (m : Manager) (key : GoString) (g : Nat) :
    (m.releaseConversation key g).log = m.log := by
  unfold Manager.releaseConversation
  split
  · dsimp only
    split <;> rfl
  · rfl

theorem log_cancelTask (m : Manager) (n : Nat) : (m.cancelTask n).log = m.log := by
  unfold Manager.cancelTask
  split <;> rfl

/-- A publication logs the end of the task or nothing. -/
theorem log_publish (m : Manager) (n : Nat) (event : BridgeTaskEvent) :
    (m.publish n event).log = m.log ∨ ∃ last, (m.publish n event).log = m.log ++ [Entry.ended n last] := by
  unfold Manager.publish
  split
  · dsimp only
    split
    · exact .inr ⟨_, rfl⟩
    · exact .inl rfl
  · exact .inl rfl

theorem Turn.log {deps : Deps} {n : Nat} (h : Turn deps m n runner action m') :
    m'.log = m.log ∨ ∃ last, m'.log = m.log ++ [Entry.ended n last] := by
  have hpublish : ∀ event pc, ((m.publish n event).setRunner n runner pc).log = m.log ∨
      ∃ last, ((m.publish n event).setRunner n runner pc).log = m.log ++ [Entry.ended n last] := by
    intro event pc
    exact log_publish m n event
  cases h with
  | acquire => exact .inl (log_acquireConversation m n runner)
  | take g => exact .inl (log_setGate m g true)
  | leave g => exact .inl (log_releaseConversation m runner.key g)
  | refused => exact hpublish { type := .cancelled } .ended
  | started g => exact hpublish { type := .started } (.executing g [] [])
  | message g status _ tools' _ event => exact hpublish event (.executing g status tools')
  | finish g event => exact hpublish event (.releasing g)
  | giveBack g => exact .inl (log_setGate m g false)
  | release g => exact .inl (log_releaseConversation m runner.key g)
  | giveUp | skip | enter | retry | outcome => exact .inl rfl

/-! ## What calls do -/

/-- The last section of `Start` is about to make a task for an id. -/
def Manager.Creates (m : Manager) (c : StartCall) : Prop :=
  c.req.requestId ≠ [] ∧ m.fences.has c.req.requestId = false ∧
    m.requests.get? c.req.requestId = none ∧ m.requestsFull c.req = false

/-- What one section of a `Start` does. -/
inductive StartSection (deps : Deps) (m : Manager) (call : Nat) (c : StartCall) (action : Action) :
    Manager → Prop
  | goOn (pc : StartPc) : StartSection deps m call c action (m.setStart call c pc)
  | make (taskId : GoString) (pc : StartPc) :
      StartSection deps m call c action ((m.spawn deps c.req taskId).setStart call c pc)
  | makeKept (at' : Nat) (newTaskId : GoString) (haction : action = .startCommit at' newTaskId)
      (hpc : c.pc = .prepared) (hcreates : m.Creates c) (pc : StartPc) :
      StartSection deps m call c action
        (((m.spawn deps c.req c.req.requestId).keep c.req m.nextTask).setStart call c pc)

theorem stepStart_section (deps : Deps) (m : Manager) (call : Nat) (c : StartCall)
    (action : Action) :
    stepStart deps m call c action = m ∨
      StartSection deps m call c action (stepStart deps m call c action) := by
  cases action <;> unfold stepStart <;> dsimp only <;> try exact .inl rfl
  case startValidate =>
      split
      · exact .inr (.goOn _)
      · exact .inl rfl
  case startCheck =>
      split
      · refine .inr ?_
        unfold Manager.startCheck
        split
        · exact .goOn _
        · split
          · exact .goOn _
          · split
            · split <;> exact .goOn _
            · exact .goOn _
      · exact .inl rfl
  case startPrepare =>
      split
      · exact .inr (.goOn _)
      · exact .inl rfl
  case startCommit at' newTaskId =>
      split
      · rename_i hpc
        refine .inr ?_
        unfold Manager.startCommit
        split
        · exact .make _ _
        · rename_i hid
          split
          · exact .goOn _
          · rename_i hfence
            split
            · split <;> exact .goOn _
            · rename_i hnew
              split
              · exact .goOn _
              · rename_i hroom
                refine .makeKept at' newTaskId rfl hpc ?_ _
                exact ⟨hid, Bool.eq_false_iff.mpr hfence, hnew, Bool.eq_false_iff.mpr hroom⟩
      · exact .inl rfl

/-- What one section of a `Fence` does. -/
inductive FenceSection (m : Manager) (call : Nat) (c : FenceCall) : Manager → Prop
  | goOn (pc : FencePc) : FenceSection m call c (m.setFence call c pc)
  | reserve : FenceSection m call c
      ({ m with fences := m.fences.set c.id () }.fenceReturns call c none .notStarted)
  | signal (n : Nat) (pc : FencePc) : FenceSection m call c ((m.cancelTask n).setFence call c pc)
  | answer (n : Nat) (answer : FenceAnswer) :
      FenceSection m call c (m.fenceReturns call c (some n) answer)

theorem stepFence_section (m : Manager) (call : Nat) (c : FenceCall) (action : Action) :
    stepFence m call c action = m ∨ FenceSection m call c (stepFence m call c action) := by
  cases action <;> unfold stepFence <;> dsimp only <;> try exact .inl rfl
  case fenceValidate =>
      split
      · exact .inr (.goOn _)
      · exact .inl rfl
  case fenceLookup =>
      split
      · refine .inr ?_
        unfold Manager.fenceLookup
        split
        · exact .goOn _
        · split
          · exact .goOn _
          · exact .reserve
      · exact .inl rfl
  case fenceRead =>
      split
      · exact .inr (.goOn _)
      · exact .inl rfl
  case fenceCancel =>
      split
      · exact .inr (.signal _ _)
      · exact .inl rfl
  case fenceGiveUp =>
      split
      · exact .inr (.goOn _)
      · exact .inl rfl
  case fenceAnswer =>
      split
      · unfold Manager.fenceAnswer
        split
        · split
          · refine .inr ?_
            split
            · exact .goOn _
            · split <;> exact .answer _ _
          · exact .inl rfl
        · exact .inl rfl
      · exact .inl rfl

/-- Whatever a step does, it is a section of a call, a turn of a goroutine, an
action of its own, or nothing. -/
theorem step_cases (deps : Deps) (m : Manager) (action : Action) {P : Manager → Prop}
    (hsame : P m)
    (hstart : ∀ call c, action.start? = some call → m.starts.get? call = some c →
      StartSection deps m call c action (stepStart deps m call c action) →
      P (stepStart deps m call c action))
    (hfence : ∀ call c, action.fence? = some call → m.fenceCalls.get? call = some c →
      FenceSection m call c (stepFence m call c action) → P (stepFence m call c action))
    (hrunner : ∀ n runner m', action.runner? = some n → m.runners.get? n = some runner →
      Turn deps m n runner action m' → P m')
    (hother : P (stepOther deps m action)) : P (step deps m action).2 := by
  unfold step
  split
  · rename_i call hcall
    cases hc : m.starts.get? call with
    | none => exact hsame
    | some c =>
      rcases stepStart_section deps m call c action with heq | hsection
      · show P (stepStart deps m call c action)
        rw [heq]
        exact hsame
      · exact hstart call c hcall hc hsection
  · split
    · rename_i call hcall
      cases hc : m.fenceCalls.get? call with
      | none => exact hsame
      | some c =>
        rcases stepFence_section m call c action with heq | hsection
        · show P (stepFence m call c action)
          rw [heq]
          exact hsame
        · exact hfence call c hcall hc hsection
    · split
      · rename_i n hn
        cases hr : m.runners.get? n with
        | none => exact hsame
        | some runner =>
          rcases stepRunner_turn deps m n runner action with heq | hturn
          · show P (stepRunner deps m n runner action)
            rw [heq]
            exact hsame
          · exact hrunner n runner _ hn hr hturn
      · exact hother

/-! ## Values for concrete runs -/

def exampleDeps : Deps where
  eventLimit := 512
  terminalTTL := 5 * 60 * 1000 * millisecond
  classify := fun _ => .other
  redact := id

def exampleRequest : BridgeTaskRequest where
  requestId := go "task_1_a"
  model := []
  runtimeId := go "codex"
  conversationKey := go "room"
  resumeSessionId := []
  workDir := go "/work"
  prompt := go "hello"

/-- A call of `Start` from its beginning to its end. -/
def startExample (call : Nat) (req : BridgeTaskRequest) : List Action :=
  [.start req, .startValidate call, .startCheck call, .startPrepare call none,
    .startCommit call (go "task_x")]

end ClawMessenger.Ports.Bridge
