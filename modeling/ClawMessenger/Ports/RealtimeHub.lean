import ClawMessenger.Verified.Machine
import ClawMessenger.Verified.RecentIds
import ClawMessenger.Verified.RoomIndex

/-!
# The realtime hub

The hub keeps the connected clients and, for every scope, the room of its
subscribers.  Its indices change under a lock, in one step each; a fan-out
holds the lock for reading, looks at one client after the other, and nothing
else may take the lock for writing meanwhile.  What is written to a client goes
through its `send` channel, by the fan-outs and, without any lock, by the
goroutine that reads its frames.  Whoever takes a client out of the hub closes
the channel.  To send on a closed channel, or to close it again, is a panic,
and with it the server is gone (`crashed`).

The relay is told of a scope's first and last subscriber after the lock is
given back, by the goroutine that made the change.
-/

namespace ClawMessenger.Ports.RealtimeHub

open ClawMessenger.Verified RoomIndex

/-! ## Scopes and events -/

structure ScopeKey where
  scopeType : String
  id : String
deriving DecidableEq, Repr

def scopeWorkspace : String := "workspace"

def scopeUser : String := "user"

def scopeTask : String := "task"

def scopeChat : String := "chat"

def scopeDaemonRuntime : String := "daemon_runtime"

inductive Target where
  | room (key : ScopeKey)
  | everyone

/-- One fan-out: whom it goes to, which workspace it leaves out, and the id of
the event, empty for none. -/
structure Event where
  target : Target
  exclude : String
  id : String

def broadcastToScopeDedup (scopeType scopeID eventID : String) : Option Event :=
  if scopeType = "" ∨ scopeID = "" then none
  else some ⟨.room ⟨scopeType, scopeID⟩, "", eventID⟩

def fanoutAllDedup (excludeWorkspace eventID : String) : Event :=
  ⟨.everyone, excludeWorkspace, eventID⟩

def fanoutUser (userID excludeWorkspace eventID : String) : Event :=
  ⟨.room ⟨scopeUser, userID⟩, excludeWorkspace, eventID⟩

/-! ## The two paths of an event -/

/-- What of an envelope decides its delivery. -/
structure Envelope where
  eventID : String
  scope : String
  scopeID : String
  workspaceID : String
  payloadJSON : String

/-- The frame of `publishWithID`, on its way through Redis. -/
def newEnvelope (scopeType scopeID exclude frame id : String) : Envelope :=
  ⟨id, scopeType, scopeID, exclude, frame⟩

/-- `deliverEnvelope`, as far as the clients of the hub go. -/
def deliverEnvelope (ev : Envelope) : Option Event :=
  if ev.payloadJSON = "" then none
  else if ev.scope = scopeDaemonRuntime then none
  else if ev.scope = "global" then some (fanoutAllDedup "" ev.eventID)
  else if ev.scope = scopeUser then some (fanoutUser ev.scopeID ev.workspaceID ev.eventID)
  else broadcastToScopeDedup ev.scope ev.scopeID ev.eventID

/-- A call of the `DualWriteBroadcaster`. -/
inductive DualWrite where
  | broadcastToScope (scopeType scopeID : String)
  | sendToUser (userID exclude : String)
  | broadcast

/-- The local fast path. -/
def DualWrite.localPath (id : String) : DualWrite → Option Event
  | .broadcastToScope scopeType scopeID => broadcastToScopeDedup scopeType scopeID id
  | .sendToUser userID exclude => some (fanoutUser userID exclude id)
  | .broadcast => some (fanoutAllDedup "" id)

def DualWrite.publish (frame id : String) : DualWrite → Envelope
  | .broadcastToScope scopeType scopeID => newEnvelope scopeType scopeID "" frame id
  | .sendToUser userID exclude => newEnvelope scopeUser userID exclude frame id
  | .broadcast => newEnvelope "global" "all" "" frame id

/-! ## Clients -/

/-- What `handleFrame` makes of a message.  `authorized` is the answer of the
authorizer, where it is asked. -/
inductive Frame where
  | subscribe (key : ScopeKey) (authorized : Bool)
  | unsubscribe (key : ScopeKey)
  | invalidPayload
  | ping
  | unknown
deriving DecidableEq, Repr

/-- Where `readPump` stands: between frames, in `handleFrame`, with callbacks to
run before the answer, or on its way out. -/
inductive Reader where
  | reading
  | handling (frame : Frame)
  | answering (tickets : List Nat)
  | leaving
  | gone
deriving DecidableEq, Repr

inductive Message where
  | reply
  | event (e : Event)

def sendCapacity : Nat := 256

def dedupCapacity : Nat := 128

structure Client where
  userID : String
  workspaceID : String
  subscriptions : List ScopeKey
  send : List Message
  closed : Bool
  seenList : List String
  reader : Reader

def newClient (userID workspaceID : String) : Client :=
  ⟨userID, workspaceID, [], [], false, [], .reading⟩

def Client.markSeen (c : Client) (eventID : String) : Bool × Client :=
  if eventID = "" then (true, c)
  else
    let marked := RecentIds.mark dedupCapacity c.seenList eventID
    (marked.1, { c with seenList := marked.2 })

def Client.excluded (c : Client) (e : Event) : Bool :=
  e.exclude ≠ "" && c.workspaceID = e.exclude

/-- The guards of `handleSubscribe`. -/
def Client.admits (c : Client) (key : ScopeKey) (authorized : Bool) : Bool :=
  if key.scopeType = scopeWorkspace ∨ key.scopeType = scopeUser then
    !((key.scopeType = scopeWorkspace && key.id ≠ c.workspaceID) ||
      (key.scopeType = scopeUser && key.id ≠ c.userID))
  else if key.scopeType = scopeTask ∨ key.scopeType = scopeChat then authorized
  else false

/-! ## The hub and the relay -/

inductive Callback where
  | onFirstSubscriber (key : ScopeKey)
  | onLastSubscriber (key : ScopeKey)

/-- Where `Run` stands. -/
inductive RunLoop where
  | idle
  | registering (client : Nat)
  | subscribing (client : Nat) (scopes : List ScopeKey) (tickets : List Nat)
  | removing (client : Nat)
  | calling (tickets : List Nat)
  | broadcasting (fanout : Nat)
deriving DecidableEq, Repr

/-- Where a fan-out stands.  It holds the lock while it is `iterating` or `sending`. -/
inductive Phase where
  | iterating (left slow : List Nat)
  | sending (client : Nat) (left slow : List Nat)
  | evicting (slow : List Nat)
  | calling (tickets : List Nat)
  | done
deriving DecidableEq, Repr

/-- `clients` is the set it iterates over. -/
structure Fanout where
  event : Event
  clients : List Nat
  phase : Phase

/-- The consumers of a `RedisRelay`, by scope. -/
structure Relay where
  consumers : List ScopeKey
  stopping : Bool
  cancelled : Bool

/-- `objects` are all clients there ever were; `clients` those in the hub.
`callbacks` tells whether the subscription callbacks are set, and `pending` are
the ones to be made, numbered in the order of the changes they belong to. -/
structure State where
  objects : OrderedMap Nat Client
  nextClient : Nat
  rooms : Rooms ScopeKey Nat
  clients : List Nat
  callbacks : Bool
  run : RunLoop
  fanouts : OrderedMap Nat Fanout
  nextFanout : Nat
  pending : OrderedMap Nat Callback
  nextTicket : Nat
  relay : Relay
  crashed : Bool

/-- A hub whose relay was started, before the first connection. -/
def init : State := ⟨∅, 0, ∅, [], true, .idle, ∅, 0, ∅, 0, ⟨[], false, false⟩, false⟩

def Phase.locked : Phase → Bool
  | .iterating _ _ => true
  | .sending _ _ _ => true
  | _ => false

/-- Nobody holds the lock. -/
def State.unlocked (s : State) : Bool := s.fanouts.values.all fun f => !f.phase.locked

def State.putClient (s : State) (client : Nat) (c : Client) : State :=
  { s with objects := s.objects.set client c }

def State.setReader (s : State) (client : Nat) (c : Client) (reader : Reader) : State :=
  s.putClient client { c with reader := reader }

/-! ## Callbacks -/

def startConsumer (relay : Relay) (key : ScopeKey) : Relay :=
  if relay.stopping || relay.cancelled then relay
  else if key ∈ relay.consumers then relay
  else { relay with consumers := relay.consumers ++ [key] }

def stopConsumer (relay : Relay) (key : ScopeKey) : Relay :=
  { relay with consumers := relay.consumers.filter fun other => other ≠ key }

def Relay.call (relay : Relay) : Callback → Relay
  | .onFirstSubscriber key => startConsumer relay key
  | .onLastSubscriber key => stopConsumer relay key

/-- Callbacks to be made for a change of the rooms, if they are set. -/
def State.owe (s : State) (calls : List Callback) : List Nat × State :=
  if s.callbacks then
    (List.range' s.nextTicket calls.length,
      { s with
        pending := (calls.zipIdx s.nextTicket).foldl (fun p call => p.set call.2 call.1) s.pending
        nextTicket := s.nextTicket + calls.length })
  else ([], s)

def State.callBack (s : State) (ticket : Nat) : State :=
  match s.pending.get? ticket with
  | none => s
  | some callback => { s with
      pending := s.pending.erase ticket
      relay := s.relay.call callback }

/-! ## Subscriptions -/

section

variable (s : State) (client : Nat)

def subscribe (key : ScopeKey) : List Nat × State :=
  if key.scopeType = "" ∨ key.id = "" then ([], s)
  else if client ∉ s.clients then ([], s)
  else
    match s.objects.get? client with
    | none => ([], s)
    | some c =>
      if key ∈ c.subscriptions then ([], s)
      else
        let joined := join s.rooms key client
        let s := { s.putClient client { c with subscriptions := c.subscriptions ++ [key] } with
          rooms := joined.2 }
        if joined.1 then s.owe [.onFirstSubscriber key] else ([], s)

def unsubscribe (key : ScopeKey) : List Nat × State :=
  if key.scopeType = "" ∨ key.id = "" then ([], s)
  else if client ∉ s.clients then ([], s)
  else
    match s.objects.get? client with
    | none => ([], s)
    | some c =>
      if key ∉ c.subscriptions then ([], s)
      else
        let left := leave s.rooms key client
        let s := { s.putClient client
            { c with subscriptions := c.subscriptions.filter fun other => other ≠ key } with
          rooms := left.2 }
        if left.1 then s.owe [.onLastSubscriber key] else ([], s)

/-- One client out of the hub, with the rooms it was the last one of: the body
of `removeClient`, and of the loop of `evictSlow`. -/
def drop : List ScopeKey × State :=
  if client ∉ s.clients then ([], s)
  else
    match s.objects.get? client with
    | none => ([], s)
    | some c =>
      let left := leaveAll s.rooms c.subscriptions client
      (left.1,
        { s.putClient client { c with subscriptions := [], closed := true } with
          clients := s.clients.filter fun other => other ≠ client
          rooms := left.2
          crashed := s.crashed || c.closed })

def removeClient : List Nat × State :=
  let dropped := drop s client
  dropped.2.owe (dropped.1.map .onLastSubscriber)

end

def dropAll (s : State) : List Nat → List ScopeKey × State
  | [] => ([], s)
  | client :: slow =>
    let dropped := drop s client
    let rest := dropAll dropped.2 slow
    (dropped.1 ++ rest.1, rest.2)

def evictSlow (s : State) (slow : List Nat) : List Nat × State :=
  let dropped := dropAll s slow
  dropped.2.owe (dropped.1.map .onLastSubscriber)

/-! ## Frames -/

/-- Whether `handleFrame` takes the lock. -/
def Client.locks (c : Client) : Frame → Bool
  | .subscribe key authorized => c.admits key authorized
  | .unsubscribe _ => true
  | _ => false

section

variable (s : State) (client : Nat) (c : Client)

/-- What the lock is taken for in `handleFrame`, if anything. -/
def handleFrame (frame : Frame) : List Nat × State :=
  match frame with
  | .subscribe key authorized =>
    if c.admits key authorized then subscribe s client key else ([], s)
  | .unsubscribe key => unsubscribe s client key
  | _ => ([], s)

/-- `select` with a default: a closed channel panics, a full one is passed over. -/
def sendJSON : State :=
  if c.closed then { s with crashed := true }
  else if c.send.length < sendCapacity then s.putClient client { c with send := c.send ++ [Message.reply] }
  else s

/-- The reader takes its next step with the frame it has. -/
def readStep : State :=
  match c.reader with
  | .handling frame =>
    if s.unlocked || !c.locks frame then
      let handled := handleFrame s client c frame
      match handled.2.objects.get? client with
      | none => handled.2
      | some c => handled.2.setReader client c (.answering handled.1)
    else s
  | .answering (ticket :: tickets) => (s.callBack ticket).setReader client c (.answering tickets)
  | .answering [] => sendJSON (s.setReader client c .reading) client { c with reader := .reading }
  | _ => s

end

/-! ## Fan-outs -/

def State.targets (s : State) : Target → List Nat
  | .room key => members s.rooms key
  | .everyone => s.clients

def State.fanOut (s : State) (e : Event) : State :=
  let clients := s.targets e.target
  { s with
    fanouts := s.fanouts.set s.nextFanout ⟨e, clients, .iterating clients []⟩
    nextFanout := s.nextFanout + 1 }

def State.setPhase (s : State) (fanout : Nat) (f : Fanout) (phase : Phase) : State :=
  { s with fanouts := s.fanouts.set fanout { f with phase := phase } }

section

variable (s : State) (fanout client : Nat) (f : Fanout) (left slow : List Nat)

/-- The fan-out looks at one of the clients it has left. -/
def visit : State :=
  if client ∉ left then s
  else
    match s.objects.get? client with
    | none => s
    | some c =>
      let rest := left.filter fun other => other ≠ client
      if c.excluded f.event then s.setPhase fanout f (.iterating rest slow)
      else
        let marked := c.markSeen f.event.id
        (s.putClient client marked.2).setPhase fanout f
          (if marked.1 then .sending client rest slow else .iterating rest slow)

/-- It sends to the client it has marked. -/
def sendEvent : State :=
  match s.objects.get? client with
  | none => s
  | some c =>
    if c.closed then { s with crashed := true }
    else if c.send.length < sendCapacity then
      (s.putClient client { c with send := c.send ++ [Message.event f.event] }).setPhase fanout f
        (.iterating left slow)
    else s.setPhase fanout f (.iterating left (slow ++ [client]))

end

def fanStep (s : State) (fanout : Nat) (f : Fanout) : State :=
  match f.phase with
  | .iterating [] slow => s.setPhase fanout f (if slow = [] then .done else .evicting slow)
  | .iterating _ _ => s
  | .sending client left slow => sendEvent s fanout client f left slow
  | .evicting slow =>
    if s.unlocked then
      let evicted := evictSlow s slow
      evicted.2.setPhase fanout f (.calling evicted.1)
    else s
  | .calling (ticket :: tickets) => (s.callBack ticket).setPhase fanout f (.calling tickets)
  | .calling [] => s.setPhase fanout f .done
  | .done => s

/-! ## The loop of the hub -/

/-- The scopes a connection is subscribed to at once. -/
def Client.ownScopes (c : Client) : List ScopeKey :=
  ⟨scopeWorkspace, c.workspaceID⟩ :: if c.userID ≠ "" then [⟨scopeUser, c.userID⟩] else []

def runStep (s : State) : State :=
  match s.run with
  | .idle => s
  | .registering client =>
    if s.unlocked then
      match s.objects.get? client with
      | none => { s with run := .idle }
      | some c => { s with
          clients := s.clients ++ [client]
          run := .subscribing client c.ownScopes [] }
    else s
  | .subscribing client scopes (ticket :: tickets) =>
    { s.callBack ticket with run := .subscribing client scopes tickets }
  | .subscribing client (key :: scopes) [] =>
    if s.unlocked then
      let subscribed := subscribe s client key
      { subscribed.2 with run := .subscribing client scopes subscribed.1 }
    else s
  | .subscribing _ [] [] => { s with run := .idle }
  | .removing client =>
    if s.unlocked then
      let removed := removeClient s client
      { removed.2 with run := .calling removed.1 }
    else s
  | .calling (ticket :: tickets) => { s.callBack ticket with run := .calling tickets }
  | .calling [] => { s with run := .idle }
  | .broadcasting fanout =>
    match s.fanouts.get? fanout with
    | none => { s with run := .idle }
    | some f => if f.phase = .done then { s with run := .idle } else s

/-! ## Steps -/

inductive Action where
  | connect (userID workspaceID : String)
  | unregister (client : Nat)
  | broadcast
  | run
  | frame (client : Nat) (frame : Frame)
  | read (client : Nat)
  | hangUp (client : Nat)
  | write (client : Nat)
  | fanOut (e : Event)
  | visit (fanout client : Nat)
  | fan (fanout : Nat)
  | unsetCallbacks
  | stopRelay
  | cancelRelay

def next (s : State) : Action → State
  | .connect userID workspaceID =>
    if s.run = .idle then
      { s.putClient s.nextClient (newClient userID workspaceID) with
        nextClient := s.nextClient + 1
        run := .registering s.nextClient }
    else s
  | .unregister client =>
    match s.objects.get? client with
    | none => s
    | some c =>
      if s.run = .idle ∧ c.reader = .leaving then
        { s.setReader client c .gone with run := .removing client }
      else s
  | .broadcast =>
    if s.run = .idle then
      { s.fanOut (fanoutAllDedup "" "") with run := .broadcasting s.nextFanout }
    else s
  | .run => runStep s
  | .frame client frame =>
    match s.objects.get? client with
    | none => s
    | some c =>
      if c.reader = .reading ∧ frame ≠ .unknown then s.setReader client c (.handling frame)
      else s
  | .read client =>
    match s.objects.get? client with
    | none => s
    | some c => readStep s client c
  | .hangUp client =>
    match s.objects.get? client with
    | none => s
    | some c => if c.reader = .reading then s.setReader client c .leaving else s
  | .write client =>
    match s.objects.get? client with
    | none => s
    | some c => s.putClient client { c with send := c.send.tail }
  | .fanOut e => s.fanOut e
  | .visit fanout client =>
    match s.fanouts.get? fanout with
    | none => s
    | some f =>
      match f.phase with
      | .iterating left slow => visit s fanout client f left slow
      | _ => s
  | .fan fanout =>
    match s.fanouts.get? fanout with
    | none => s
    | some f => fanStep s fanout f
  | .unsetCallbacks => if s.unlocked then { s with callbacks := false } else s
  | .stopRelay => { s with relay := { s.relay with stopping := true } }
  | .cancelRelay => { s with relay := { s.relay with cancelled := true } }

/-! ## What a client gets -/

/-- An event reaches a client, and it is put into its channel. -/
inductive Output where
  | arrived (client : Nat) (eventID : String)
  | enqueued (client : Nat) (e : Event)

def outputs (s : State) : Action → List Output
  | .visit fanout client =>
    match s.fanouts.get? fanout with
    | none => []
    | some f =>
      match f.phase with
      | .iterating left _ =>
        if client ∉ left then []
        else
          match s.objects.get? client with
          | none => []
          | some c => if c.excluded f.event then [] else [.arrived client f.event.id]
      | _ => []
  | .fan fanout =>
    match s.fanouts.get? fanout with
    | none => []
    | some f =>
      match f.phase with
      | .sending client _ _ =>
        match s.objects.get? client with
        | none => []
        | some c =>
          if !c.closed && c.send.length < sendCapacity then [.enqueued client f.event] else []
      | _ => []
  | _ => []

def step (s : State) (action : Action) : List Output × State :=
  if s.crashed then ([], s) else (outputs s action, next s action)

abbrev Cfg := Config State Action (List Output)

end ClawMessenger.Ports.RealtimeHub
