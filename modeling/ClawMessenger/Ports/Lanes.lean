import ClawMessenger.Ports.Conversation
import ClawMessenger.Verified.Machine
import ClawMessenger.Verified.OrderedMap

/-!
# Conversation lanes

Every conversation has a lane: the first operation of a conversation runs at
once, later ones wait in the lane's queue, and `#runLane` takes them one after
the other.  Disposing of a binding releases what waits in its lanes.

A lane is an object of the heap: `#lanes` holds its address, and so does the
call of `#runLane` that works on it.  Such a call is suspended while it awaits
an operation; this is a `Runner`.  An operation that rejects leaves `#runLane`
through its `finally`, which resolves the item and does nothing else.

The log records what becomes of each item.  It is not part of the source and
nothing reads it.
-/

namespace ClawMessenger.Ports.Lanes

open Verified Verified.JsString Conversation

def MAX_WAITING_PER_CONVERSATION : Nat := 8

def MAX_WAITING_PER_BINDING : Nat := 256

def MAX_WAITING_PROCESS : Nat := 1024

inductive ItemState where
  | waiting
  | executing
  | released
deriving DecidableEq, Repr

structure LaneItem where
  /-- Arrival number. -/
  id : Nat
  state : ItemState
deriving DecidableEq, Repr

structure Lane where
  bindingKey : JsString
  conversationKey : JsString
  running : Bool
  queue : List LaneItem
deriving DecidableEq

/-- A call of `#runLane` that awaits the operation of an item. -/
structure Runner where
  lane : Nat
  item : Nat

inductive Happening where
  /-- The item was put on the lane of its conversation. -/
  | arrived (conversation : JsString) (item : Nat)
  /-- `item.run()`. -/
  | started (conversation : JsString) (item : Nat)
  /-- The awaited operation resolved or rejected. -/
  | settled (conversation : JsString) (item : Nat)
  /-- Disposal set the waiting item to `released`. -/
  | released (conversation : JsString) (item : Nat)
  /-- `item.resolve()`. -/
  | resolved (item : Nat)
  /-- `[conversation_busy]`. -/
  | busy (conversation : JsString)

/-- The fields of the message router that lanes use. -/
structure Router where
  lanes : OrderedMap JsString Nat
  waitingByBinding : OrderedMap JsString Nat
  waiting : Nat
  bindingDisposals : OrderedMap JsString Nat
  disposedBindings : List JsString
  heap : OrderedMap Nat Lane
  nextLane : Nat
  nextItem : Nat
  nextDisposal : Nat
  runners : List Runner
  log : List Happening

namespace Router

def new : Router := ⟨∅, ∅, 0, ∅, [], ∅, 0, 0, 0, [], []⟩

def record (r : Router) (happenings : List Happening) : Router :=
  { r with log := r.log ++ happenings }

def incrementWaiting (r : Router) (bindKey : JsString) : Router :=
  { r with
    waiting := r.waiting + 1
    waitingByBinding :=
      r.waitingByBinding.set bindKey ((r.waitingByBinding.get? bindKey).getD 0 + 1) }

def decrementWaiting (r : Router) (bindKey : JsString) : Router :=
  let next := (r.waitingByBinding.get? bindKey).getD 0 - 1
  { r with
    waiting := r.waiting - 1
    waitingByBinding :=
      if next = 0 then r.waitingByBinding.erase bindKey else r.waitingByBinding.set bindKey next }

/-- The runner of lane `n` calls `item.run()`, the rest of the queue waits. -/
def execute (r : Router) (n : Nat) (lane : Lane) (item : LaneItem) (rest : List LaneItem) : Router :=
  { r with
    heap := r.heap.set n { lane with queue := rest }
    runners := r.runners ++ [⟨n, item.id⟩]
    log := r.log ++ [Happening.started lane.conversationKey item.id] }

/-- The loop of `#runLane` up to its next `await` or its end, `queue` being
what the lane's queue holds. -/
def runLane (r : Router) (n : Nat) (lane : Lane) : List LaneItem → Router
  | [] =>
    let r := { r with heap := r.heap.set n { lane with queue := [], running := false } }
    if r.lanes.get? lane.conversationKey = some n then
      { r with lanes := r.lanes.erase lane.conversationKey }
    else
      r
  | item :: rest =>
    match item.state with
    | .released => r.runLane n lane rest
    | .waiting => (r.decrementWaiting lane.bindingKey).execute n lane item rest
    | .executing => r.execute n lane item rest

/-- `#enqueue` once the lane is found. -/
def enqueueOn (r : Router) (bindKey key : JsString) (n : Nat) (lane : Lane) : Router :=
  if (lane.running ∨ 0 < lane.queue.length) ∧
      (MAX_WAITING_PER_CONVERSATION ≤ lane.queue.length ∨
        MAX_WAITING_PER_BINDING ≤ (r.waitingByBinding.get? bindKey).getD 0 ∨
        MAX_WAITING_PROCESS ≤ r.waiting) then
    r.record [.busy key]
  else if lane.running then
    let r := r.incrementWaiting bindKey
    let item : LaneItem := ⟨r.nextItem, .waiting⟩
    { r with
      heap := r.heap.set n { lane with queue := lane.queue ++ [item] }
      nextItem := r.nextItem + 1
      log := r.log ++ [Happening.arrived key item.id] }
  else
    let item : LaneItem := ⟨r.nextItem, .executing⟩
    let lane := { lane with queue := lane.queue ++ [item], running := true }
    let r : Router := { r with
      heap := r.heap.set n lane
      nextItem := r.nextItem + 1
      log := r.log ++ [Happening.arrived key item.id] }
    r.runLane n lane lane.queue

def enqueue (r : Router) (identity : BindingIdentity) (conversation : ConversationIdentity) :
    Router :=
  let bindKey := bindingKey identity
  let key := conversationKey conversation
  if bindKey ∈ r.disposedBindings then
    r
  else
    match r.lanes.get? key with
    | some n =>
      match r.heap.get? n with
      | some lane => r.enqueueOn bindKey key n lane
      | none => r
    | none =>
      let lane : Lane := ⟨bindKey, key, false, []⟩
      let r' := { r with
        heap := r.heap.set r.nextLane lane
        lanes := r.lanes.set key r.nextLane
        nextLane := r.nextLane + 1 }
      r'.enqueueOn bindKey key r.nextLane lane

/-- The operation of an item resolves or rejects, and the call of `#runLane`
that awaits it goes on. -/
def settle (r : Router) (item : Nat) (rejected : Bool) : Router :=
  match r.runners.find? fun runner => runner.item = item with
  | none => r
  | some runner =>
    match r.heap.get? runner.lane with
    | none => r
    | some lane =>
      let r := { r with
        runners := r.runners.filter fun other => other.item ≠ item
        log := r.log ++ [Happening.settled lane.conversationKey item, .resolved item] }
      -- a rejection leaves the loop: `running` stays set and the lane stays in `#lanes`
      if rejected then r else r.runLane runner.lane lane lane.queue

/-- One item of a disposed lane. -/
def releaseItem (bindKey key : JsString) (r : Router) (item : LaneItem) : Router :=
  if item.state = .waiting then
    (r.decrementWaiting bindKey).record [.released key item.id, .resolved item.id]
  else
    r

/-- One round of the loop over `#lanes`. -/
def drainLane (bindKey : JsString) (r : Router) (entry : JsString × Nat) : Router :=
  match r.heap.get? entry.2 with
  | none => r
  | some lane =>
    if lane.bindingKey = bindKey then
      let r := { r with heap := r.heap.set entry.2 { lane with queue := [] } }
      let r := lane.queue.foldl (releaseItem bindKey lane.conversationKey) r
      if lane.running then r else { r with lanes := r.lanes.erase entry.1 }
    else
      r

/-- What `#disposeBindingOnce` does with lanes. -/
def disposeBindingOnce (r : Router) (bindKey : JsString) : Router :=
  let r := { r with disposedBindings :=
    if bindKey ∈ r.disposedBindings then r.disposedBindings else r.disposedBindings ++ [bindKey] }
  r.lanes.entries.foldl (drainLane bindKey) r

def disposeBinding (r : Router) (identity : BindingIdentity) : Router :=
  let bindKey := bindingKey identity
  match r.bindingDisposals.get? bindKey with
  | some _ => r
  | none =>
    { r with
      bindingDisposals := r.bindingDisposals.set bindKey r.nextDisposal
      nextDisposal := r.nextDisposal + 1 }.disposeBindingOnce bindKey

/-- `activateBinding` after it has awaited the disposal it had read. -/
def activateBinding (r : Router) (identity : BindingIdentity) (disposal : Option Nat) : Router :=
  let bindKey := bindingKey identity
  if bindKey ∉ r.disposedBindings then
    r
  else if disposal ≠ none ∧ r.bindingDisposals.get? bindKey ≠ disposal then
    r
  else
    { r with
      bindingDisposals := r.bindingDisposals.erase bindKey
      disposedBindings := r.disposedBindings.filter (· ≠ bindKey) }

end Router

/-! ## Runs -/

inductive Event where
  /-- A call of `#enqueue`; callers take the conversation of the identity. -/
  | enqueue (conversation : ConversationIdentity)
  | settle (item : Nat) (rejected : Bool)
  | disposeBinding (identity : BindingIdentity)
  | activateBinding (identity : BindingIdentity) (disposal : Option Nat)

def step (r : Router) : Event → Unit × Router
  | .enqueue conversation => ((), r.enqueue conversation.toBindingIdentity conversation)
  | .settle item rejected => ((), r.settle item rejected)
  | .disposeBinding identity => ((), r.disposeBinding identity)
  | .activateBinding identity disposal => ((), r.activateBinding identity disposal)

abbrev Run := Config Router Event Unit

def start : Run := Machine.start Router.new

/-- Anything may happen. -/
def anything : Run → Event → Prop := fun _ _ => True

/-- The event is the rejection of an operation. -/
def Event.rejects : Event → Bool
  | .settle _ rejected => rejected
  | _ => false

/-- No operation rejects. -/
def resolving : Run → Event → Prop := fun _ event => event.rejects = false

end ClawMessenger.Ports.Lanes
