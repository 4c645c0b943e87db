import ClawMessenger.Verified.OrderedMap

/-!
# A bridge task and its events

A task numbers its events, keeps the last `eventLimit` of them and hands each
one to its subscribers.  A subscriber whose channel is full is dropped.  The
first terminal event ends the task: it closes `done`, cancels the task's
context and closes every subscriber's channel; later events are discarded.

`publish` is what the source does under the task's lock, so it is one step of
an interleaving.  Channels outlive their subscription, since the receiver still
drains what was buffered; a task therefore keeps all channels it has made, by
number.

Requests and backend messages reach the program through JSON decoding, which
leaves no invalid UTF-8 in a string: a Go string is a list of characters here,
and `byteLen` is its `len`.
-/

namespace ClawMessenger.Ports.Bridge

open Verified

abbrev GoString := List Char

/-- A string literal of the source. -/
def go (s : String) : GoString := s.toList

/-- `len(s)`. -/
def byteLen (s : GoString) : Nat := (s.map Char.utf8Size).sum

/-! ## Events -/

inductive BridgeEventType where
  | started
  | textDelta
  | toolStarted
  | toolFinished
  | status
  | completed
  | failed
  | cancelled
deriving DecidableEq, Repr

def BridgeEventType.text : BridgeEventType → GoString
  | .started => go "started"
  | .textDelta => go "text_delta"
  | .toolStarted => go "tool_started"
  | .toolFinished => go "tool_finished"
  | .status => go "status"
  | .completed => go "completed"
  | .failed => go "failed"
  | .cancelled => go "cancelled"

structure BridgeError where
  category : GoString
  message : GoString
deriving DecidableEq, Repr

/-- An event; an empty string is an absent field. -/
structure BridgeTaskEvent where
  id : Nat := 0
  type : BridgeEventType
  taskId : GoString := []
  time : Int := 0
  sessionId : GoString := []
  text : GoString := []
  tool : GoString := []
  callId : GoString := []
  output : GoString := []
  status : GoString := []
  error : Option BridgeError := none
deriving DecidableEq, Repr

def bridgeTaskTerminalEvent (type : BridgeEventType) : Bool :=
  type == .completed || type == .failed || type == .cancelled

def BridgeTaskEvent.terminal (event : BridgeTaskEvent) : Bool := bridgeTaskTerminalEvent event.type

def replayOverflow : GoString := go "replay_overflow"

/-! ## Outcomes -/

/-- What the task manager distinguishes of `taskfailure.Classify`. -/
inductive Reason where
  | agentProviderAuthOrAccess
  | agentProviderNetwork
  | other

/-- `agent.Result`, as far as the task manager reads it. -/
structure Result where
  status : GoString
  output : GoString := []
  error : GoString := []
  sessionId : GoString := []
  completionConfirmed : Bool := false
  cancelUnconfirmed : Bool := false

def bridgeTaskSafeErrorReason : Reason → BridgeError
  | .agentProviderAuthOrAccess => ⟨go "authentication", go "runtime authentication failed"⟩
  | .agentProviderNetwork => ⟨go "transport", go "runtime transport failed"⟩
  | .other => ⟨go "runtime", go "runtime execution failed"⟩

def stopUnconfirmed : BridgeError :=
  ⟨go "stop_unconfirmed", go "Runtime stop is unconfirmed; the run or its tools may still be active. Check the runtime before retrying."⟩

/-- The event `finishResult` publishes; `cancelled` is `ctx.Err() != nil`. -/
def finishResult (classify : GoString → Reason) (cancelled : Bool) (result : Result)
    (terminalStatus : GoString) : BridgeTaskEvent :=
  if result.cancelUnconfirmed then
    { type := .failed, sessionId := result.sessionId, status := terminalStatus,
      error := some stopUnconfirmed }
  else if (cancelled && !(result.completionConfirmed && result.status == go "completed"))
      || result.status == go "aborted" || result.status == go "cancelled" then
    { type := .cancelled, sessionId := result.sessionId, status := terminalStatus }
  else if result.status = go "completed" then
    { type := .completed, output := result.output, sessionId := result.sessionId,
      status := terminalStatus }
  else
    { type := .failed, sessionId := result.sessionId, status := terminalStatus,
      error := some (bridgeTaskSafeErrorReason (classify result.error)) }

/-- The event `finishError` publishes. -/
def finishError (classify : GoString → Reason) (cancelled : Bool) (raw terminalStatus : GoString) :
    BridgeTaskEvent :=
  if cancelled then
    { type := .cancelled, status := terminalStatus }
  else
    { type := .failed, status := terminalStatus,
      error := some (bridgeTaskSafeErrorReason (classify raw)) }

theorem finishResult_terminal (classify : GoString → Reason) (cancelled : Bool) (result : Result)
    (terminalStatus : GoString) :
    (finishResult classify cancelled result terminalStatus).terminal = true := by
  unfold finishResult
  split_ifs <;> rfl

theorem finishError_terminal (classify : GoString → Reason) (cancelled : Bool)
    (raw terminalStatus : GoString) :
    (finishError classify cancelled raw terminalStatus).terminal = true := by
  unfold finishError
  split_ifs <;> rfl

/-! ## Tasks -/

/-- A subscriber's channel. -/
structure Channel where
  capacity : Nat
  buffer : List BridgeTaskEvent
  closed : Bool

structure BridgeTask where
  id : GoString
  eventLimit : Nat
  nextEventId : Nat := 0
  events : List BridgeTaskEvent := []
  channels : OrderedMap Nat Channel := ∅
  subscribers : List Nat := []
  terminal : Bool := false
  terminalAt : Int := 0
  /-- The `done` channel is closed. -/
  done : Bool := false
  terminalEvent : Option BridgeTaskEvent := none
  /-- The task's own context is cancelled. -/
  cancelled : Bool := false
  nextChannel : Nat := 0

namespace BridgeTask

/-- `close(subscriber)`, and the subscription ends. -/
def closeSubscriber (task : BridgeTask) (subscriber : Nat) : BridgeTask :=
  { task with
    subscribers := task.subscribers.filter (· ≠ subscriber)
    channels := match task.channels.get? subscriber with
      | some channel => task.channels.set subscriber { channel with closed := true }
      | none => task.channels }

/-- One subscriber's turn in `publish`. -/
def offer (event : BridgeTaskEvent) (task : BridgeTask) (subscriber : Nat) : BridgeTask :=
  match task.channels.get? subscriber with
  | some channel =>
    if channel.buffer.length < channel.capacity then
      { task with channels :=
        task.channels.set subscriber { channel with buffer := channel.buffer ++ [event] } }
    else
      task.closeSubscriber subscriber
  | none => task

def publish (task : BridgeTask) (now : Int) (event : BridgeTaskEvent) : BridgeTask :=
  if task.terminal then
    task
  else
    let event := { event with id := task.nextEventId + 1, taskId := task.id, time := now }
    let events := task.events ++ [event]
    let task := { task with
      nextEventId := task.nextEventId + 1
      events := events.drop (events.length - task.eventLimit) }
    let task := task.subscribers.foldl (offer event) task
    if event.terminal then
      let task := { task with
        terminal := true
        terminalAt := now
        terminalEvent := some event
        done := true
        cancelled := true }
      task.subscribers.foldl closeSubscriber task
    else
      task

/-! ## What publishing leaves alone -/

theorem foldl_offer_fields (event : BridgeTaskEvent) (subscribers : List Nat) (task : BridgeTask) :
    let after := subscribers.foldl (offer event) task
    after.id = task.id ∧ after.terminal = task.terminal ∧ after.terminalAt = task.terminalAt ∧
      after.terminalEvent = task.terminalEvent ∧ after.done = task.done ∧
      after.cancelled = task.cancelled := by
  induction subscribers generalizing task with
  | nil => exact ⟨rfl, rfl, rfl, rfl, rfl, rfl⟩
  | cons subscriber rest ih =>
    have hrest := ih (offer event task subscriber)
    have hone : (offer event task subscriber).id = task.id ∧
        (offer event task subscriber).terminal = task.terminal ∧
        (offer event task subscriber).terminalAt = task.terminalAt ∧
        (offer event task subscriber).terminalEvent = task.terminalEvent ∧
        (offer event task subscriber).done = task.done ∧
        (offer event task subscriber).cancelled = task.cancelled := by
      unfold offer
      split
      · split <;> exact ⟨rfl, rfl, rfl, rfl, rfl, rfl⟩
      · exact ⟨rfl, rfl, rfl, rfl, rfl, rfl⟩
    rw [List.foldl_cons]
    exact ⟨hrest.1.trans hone.1, hrest.2.1.trans hone.2.1, hrest.2.2.1.trans hone.2.2.1,
      hrest.2.2.2.1.trans hone.2.2.2.1, hrest.2.2.2.2.1.trans hone.2.2.2.2.1,
      hrest.2.2.2.2.2.trans hone.2.2.2.2.2⟩

theorem foldl_closeSubscriber_fields (subscribers : List Nat) (task : BridgeTask) :
    let after := subscribers.foldl closeSubscriber task
    after.id = task.id ∧ after.terminal = task.terminal ∧ after.terminalAt = task.terminalAt ∧
      after.terminalEvent = task.terminalEvent ∧ after.done = task.done ∧
      after.cancelled = task.cancelled := by
  induction subscribers generalizing task with
  | nil => exact ⟨rfl, rfl, rfl, rfl, rfl, rfl⟩
  | cons subscriber rest ih => exact ih (task.closeSubscriber subscriber)

/-- The event as `publish` numbers it. -/
def numbered (task : BridgeTask) (now : Int) (event : BridgeTaskEvent) : BridgeTaskEvent :=
  { event with id := task.nextEventId + 1, taskId := task.id, time := now }

variable {task : BridgeTask}

theorem publish_of_terminal (h : task.terminal = true) (now : Int) (event : BridgeTaskEvent) :
    task.publish now event = task := by
  rw [publish, if_pos h]

variable {event : BridgeTaskEvent}

/-- An event that does not end the task changes nothing about its end. -/
theorem publish_status (now : Int) (hevent : event.terminal = false) :
    let after := task.publish now event
    after.id = task.id ∧ after.terminal = task.terminal ∧ after.terminalAt = task.terminalAt ∧
      after.terminalEvent = task.terminalEvent ∧ after.done = task.done ∧
      after.cancelled = task.cancelled := by
  rw [publish]
  by_cases h : task.terminal = true
  · rw [if_pos h]
    exact ⟨rfl, rfl, rfl, rfl, rfl, rfl⟩
  · rw [if_neg h]
    have hnumbered : (task.numbered now event).terminal = false := hevent
    dsimp only
    rw [show ({ event with id := task.nextEventId + 1, taskId := task.id, time := now } :
      BridgeTaskEvent) = task.numbered now event from rfl, hnumbered, if_neg Bool.false_ne_true]
    exact foldl_offer_fields _ _ _

/-- The first terminal event is the one that stays. -/
theorem publish_terminal (h : task.terminal = false) (now : Int) (hevent : event.terminal = true) :
    let after := task.publish now event
    after.id = task.id ∧ after.terminal = true ∧ after.terminalAt = now ∧
      after.terminalEvent = some (task.numbered now event) ∧ after.done = true ∧
      after.cancelled = true := by
  have hnumbered : (task.numbered now event).terminal = true := hevent
  have hoffered := fun kept => foldl_offer_fields (task.numbered now event) task.subscribers kept
  have hclosed := fun kept subscribers => foldl_closeSubscriber_fields subscribers kept
  rw [publish, h, if_neg Bool.false_ne_true]
  rw [show ({ event with id := task.nextEventId + 1, taskId := task.id, time := now } :
    BridgeTaskEvent) = task.numbered now event from rfl, if_pos hnumbered]
  refine ⟨(hclosed _ _).1.trans (hoffered _).1, ?_, ?_, ?_, ?_, ?_⟩
  · exact (hclosed _ _).2.1
  · exact (hclosed _ _).2.2.1
  · exact (hclosed _ _).2.2.2.1
  · exact (hclosed _ _).2.2.2.2.1
  · exact (hclosed _ _).2.2.2.2.2

end BridgeTask

end ClawMessenger.Ports.Bridge
