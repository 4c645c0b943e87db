import ClawMessenger.Ports.Dedup
import ClawMessenger.Verified.JsonIndent
import ClawMessenger.Verified.OrderedMap

/-!
# The router state store

`RouterStateStore` keeps the router's whole persistent state in one file and one
in-memory copy of it.  Every mutation is a pure transition on a clone of the
state; when it changed something the result is validated, measured, written,
and only then takes the place of the old state.

The file holds a typed document here: what a state written by the store reads
back as is that state.  Operations run one at a time in the order they were
enqueued, so a run of the store is a list of calls.
-/

namespace ClawMessenger.Ports.SessionStore

open Verified Verified.JsString
open Verified.Json (parse stringify)
open Conversation Dedup

def MAX_STATE_BYTES : Nat := 8 * 1024 * 1024

def MAX_SESSIONS_PER_RUNTIME : Nat := 512

def MAX_SESSIONS : Nat := 2048

def MAX_KNOWN_SESSIONS : Nat := 32

/-- The bound of the interactive collections. -/
def MAX_INTERACTIVE : Nat := 2048

/-! ## State -/

structure KnownSession where
  sessionId : JsString
  updatedAt : Nat

structure SessionEntry extends ConversationIdentity where
  conversationKey : JsString
  bindingKey : JsString
  currentSessionId : Option JsString
  knownSessions : List KnownSession
  updatedAt : Nat

inductive InteractiveStatus where
  | reserved
  | running
  | cancelPending
  | terminal
  | unconfirmed
deriving DecidableEq, Repr

inductive CancelResult where
  | cancelled
  | alreadyTerminal
  | notStarted
  | failed

structure InteractiveRequest where
  key : JsString
  sessionKey : JsString
  runtimeId : JsString
  nodeId : JsString
  senderId : JsString
  memberId : JsString
  discussionId : JsString
  chatroomId : JsString
  requestId : JsString
  taskId : JsString
  instanceId : JsString
  stateVersion : Nat
  round : Nat
  roundRevision : Nat
  expiresAt : Nat
  fingerprint : JsString
  status : InteractiveStatus
  cancelResult : Option CancelResult
  response : Option Json

structure InteractiveHead where
  key : JsString
  stateVersion : Nat
  round : Nat
  roundRevision : Nat

structure RouterState where
  sessions : List SessionEntry := []
  dedup : List DedupEntry := []
  interactiveRequests : List InteractiveRequest := []
  interactiveSessions : OrderedMap JsString JsString := ∅
  interactiveHeads : OrderedMap JsString InteractiveHead := ∅
  interactiveRooms : OrderedMap JsString JsString := ∅

def emptyState : RouterState := {}

inductive RouterStateError where
  | routerStateInvalid
  | sessionConflict
  | dedupCapacity
  /-- A `ZodError` thrown by `parse`. -/
  | schema
deriving DecidableEq, Repr

/-! ## Schemas -/

def KnownSession.schema (session : KnownSession) : Bool :=
  identifier 4096 session.sessionId && timestamp session.updatedAt

def SessionEntry.schema (entry : SessionEntry) : Bool :=
  identifier 16384 entry.conversationKey && identifier 8192 entry.bindingKey
    && runtimeIdSchema entry.runtimeId && identifier 137 entry.nodeId
    && identifier 256 entry.targetId && identifier 256 entry.senderId
    && entry.currentSessionId.all (identifier 4096) && entry.knownSessions.all KnownSession.schema
    && timestamp entry.updatedAt

def InteractiveRequest.schema (entry : InteractiveRequest) : Bool :=
  identifier 16384 entry.key && identifier 16384 entry.sessionKey
    && runtimeIdSchema entry.runtimeId && identifier 137 entry.nodeId
    && identifier 256 entry.senderId && identifier 256 entry.memberId
    && identifier 256 entry.discussionId && identifier 256 entry.chatroomId
    && identifier 256 entry.requestId && identifier 128 entry.taskId
    && identifier 128 entry.instanceId && timestamp entry.stateVersion && timestamp entry.round
    && timestamp entry.roundRevision && timestamp entry.expiresAt
    && decide (entry.fingerprint.length ≤ 64) && entry.response.all Json.isObject

def InteractiveHead.schema (head : InteractiveHead) : Bool :=
  identifier 16384 head.key && timestamp head.stateVersion && timestamp head.round
    && timestamp head.roundRevision

/-- The part of `routerStateSchema` that looks at values. -/
def RouterState.schemaValues (state : RouterState) : Bool :=
  state.sessions.all SessionEntry.schema && state.dedup.all DedupEntry.schema
    && state.interactiveRequests.all InteractiveRequest.schema
    && state.interactiveSessions.values.all (identifier 4096)
    && state.interactiveHeads.values.all InteractiveHead.schema
    && state.interactiveRooms.values.all (identifier 256)

/-- The bound `routerStateSchema` puts on the known sessions of an entry. -/
def RouterState.knownSizes (state : RouterState) : Bool :=
  state.sessions.all fun entry => decide (entry.knownSessions.length ≤ MAX_KNOWN_SESSIONS)

/-- The bounds `routerStateSchema` puts on the collections. -/
def RouterState.collectionSizes (state : RouterState) : Bool :=
  decide (state.sessions.length ≤ MAX_SESSIONS) && decide (state.dedup.length ≤ MAX_DEDUP_ENTRIES)
    && decide (state.interactiveRequests.length ≤ MAX_INTERACTIVE)
    && decide (state.interactiveSessions.size ≤ MAX_INTERACTIVE)
    && decide (state.interactiveHeads.size ≤ MAX_INTERACTIVE)
    && decide (state.interactiveRooms.size ≤ MAX_INTERACTIVE)

/-! ## Validation -/

def requestKey (runtimeId nodeId senderId discussionId requestId : JsString) : JsString :=
  stringify (.arr [.str runtimeId, .str nodeId, .str senderId, .str discussionId, .str requestId])

def isHexRun (s : JsString) : Bool := !s.isEmpty && s.all isLowerHex

/-- `/^task_[0-9a-f]+_[0-9a-f]+$/`. -/
def taskIdPattern (s : JsString) : Bool :=
  s.take 5 == js "task_" && isHexRun ((s.drop 5).takeWhile isLowerHex)
    && ((s.drop 5).dropWhile isLowerHex).head? == some 0x5F
    && isHexRun ((s.drop 5).dropWhile isLowerHex).tail

/-- `/^br_[0-9a-f]{32}$/`. -/
def instanceIdPattern (s : JsString) : Bool :=
  s.take 3 == js "br_" && isHexOfLength 32 (s.drop 3)

/-- The key, id and fingerprint checks `validateState` makes on a request. -/
def InteractiveRequest.consistent (entry : InteractiveRequest) : Bool :=
  entry.key == requestKey entry.runtimeId entry.nodeId entry.senderId entry.discussionId
      entry.requestId
    && entry.sessionKey == interactiveSessionKey entry.runtimeId entry.nodeId (js "discussion")
      entry.discussionId
    && taskIdPattern entry.taskId && instanceIdPattern entry.instanceId
    && (entry.fingerprint.isEmpty || isHexOfLength 64 entry.fingerprint)

structure InteractiveOwner where
  runtimeId : JsString
  nodeId : JsString
  discussionId : JsString

def parseInteractiveSessionOwner (key : JsString) : Except RouterStateError InteractiveOwner :=
  match parse key with
  | some (.arr [.str runtimeId, .str nodeId, .str kind, .str discussionId]) =>
    if runtimeIdSchema runtimeId && identifier 137 nodeId && kind == js "discussion"
        && identifier 256 discussionId
        && stringify (.arr [.str runtimeId, .str nodeId, .str kind, .str discussionId]) == key then
      .ok ⟨runtimeId, nodeId, discussionId⟩
    else .error .routerStateInvalid
  | _ => .error .routerStateInvalid

/-- The text a session is owned under within a runtime. -/
def ownerKey (runtimeId sessionId : JsString) : JsString :=
  stringify (.arr [.str runtimeId, .str sessionId])

def SessionEntry.ownerKeys (entry : SessionEntry) : List JsString :=
  entry.knownSessions.map fun session => ownerKey entry.runtimeId session.sessionId

/-- The owner text of an interactive session, `[]` where its key names no owner. -/
def interactiveOwnerKey (entry : JsString × JsString) : JsString :=
  match parseInteractiveSessionOwner entry.1 with
  | .ok owner => ownerKey owner.runtimeId entry.2
  | .error _ => []

/-- All sessions a state owns, ordinary and interactive. -/
def RouterState.sessionOwners (state : RouterState) : List JsString :=
  state.sessions.flatMap SessionEntry.ownerKeys
    ++ state.interactiveSessions.entries.map interactiveOwnerKey

/-- The checks `validateState` makes on one conversation. -/
def SessionEntry.consistent (entry : SessionEntry) : Bool :=
  validIdentity entry.toConversationIdentity
    && entry.conversationKey == Conversation.conversationKey entry.toConversationIdentity
    && entry.bindingKey == Conversation.bindingKey entry.toBindingIdentity
    && decide ((entry.knownSessions.map KnownSession.sessionId).Nodup)
    && decide ((entry.knownSessions.map KnownSession.updatedAt).Pairwise (· ≤ ·))
    && entry.currentSessionId.all fun id =>
      (entry.knownSessions.map KnownSession.sessionId).contains id

/-- The checks `validateState` makes on one deduplication entry. -/
def dedupConsistent (entry : DedupEntry) : Bool :=
  entry.key == dedupKey entry.runtimeId entry.messageUid
    && match entry.state with
      | .claimed => entry.admittedAt.isNone
      | .admitted => entry.admittedAt.any fun time => decide (entry.claimedAt ≤ time)

/-- How many entries of a list a runtime has. -/
def countByRuntime (ids : List JsString) (runtimeId : JsString) : Nat := ids.count runtimeId

/-- No runtime has more than its share. -/
def RouterState.runtimeSizes (state : RouterState) : Bool :=
  (state.sessions.map (·.runtimeId)).all (fun id =>
      decide (countByRuntime (state.sessions.map (·.runtimeId)) id ≤ MAX_SESSIONS_PER_RUNTIME))
    && (state.dedup.map (·.runtimeId)).all fun id =>
      decide (countByRuntime (state.dedup.map (·.runtimeId)) id ≤ MAX_DEDUP_PER_RUNTIME)

def RouterState.consistent (state : RouterState) : Bool :=
  state.interactiveRequests.all InteractiveRequest.consistent
    && decide ((state.interactiveRequests.map InteractiveRequest.key).Nodup)
    && decide ((state.interactiveRequests.map InteractiveRequest.taskId).Nodup)
    && state.sessions.all SessionEntry.consistent
    && decide ((state.sessions.map SessionEntry.conversationKey).Nodup)
    && state.interactiveSessions.keys.all
      (fun key => (parseInteractiveSessionOwner key).toOption.isSome)
    && decide (state.sessionOwners.Nodup)
    && state.dedup.all dedupConsistent
    && decide ((state.dedup.map DedupEntry.key).Nodup)

def validateState (state : RouterState) : Except RouterStateError RouterState :=
  if !(state.schemaValues && state.knownSizes && state.collectionSizes) then
    .error .routerStateInvalid
  else if !(state.runtimeSizes && state.consistent) then .error .routerStateInvalid
  else .ok state

/-! ## Persisted text -/

def InteractiveStatus.text : InteractiveStatus → JsString
  | reserved => js "reserved"
  | running => js "running"
  | cancelPending => js "cancel_pending"
  | terminal => js "terminal"
  | unconfirmed => js "unconfirmed"

def CancelResult.text : CancelResult → JsString
  | cancelled => js "cancelled"
  | alreadyTerminal => js "already_terminal"
  | notStarted => js "not_started"
  | failed => js "failed"

/-- An optional field of an object. -/
def optionalField (key : JsString) (value : Option Json) : List (JsString × Json) :=
  (value.map fun v => (key, v)).toList

def KnownSession.toJson (session : KnownSession) : Json :=
  .obj [(js "sessionId", .str session.sessionId), (js "updatedAt", Json.ofNat session.updatedAt)]

def SessionEntry.toJson (entry : SessionEntry) : Json :=
  .obj (optionalField (js "sessionScope")
      (if entry.groupScope then some (.str (js "group")) else none)
    ++ [(js "conversationKey", .str entry.conversationKey),
      (js "bindingKey", .str entry.bindingKey),
      (js "runtimeId", .str entry.runtimeId),
      (js "nodeId", .str entry.nodeId),
      (js "conversationType", Json.ofNat entry.conversationType.code),
      (js "targetId", .str entry.targetId),
      (js "senderId", .str entry.senderId)]
    ++ optionalField (js "currentSessionId") (entry.currentSessionId.map .str)
    ++ [(js "knownSessions", .arr (entry.knownSessions.map KnownSession.toJson)),
      (js "updatedAt", Json.ofNat entry.updatedAt)])

def dedupToJson (entry : DedupEntry) : Json :=
  .obj ([(js "key", .str entry.key),
      (js "runtimeId", .str entry.runtimeId),
      (js "messageUid", .str entry.messageUid),
      (js "claimId", .str entry.claimId),
      (js "state", .str (match entry.state with
        | .claimed => js "claimed"
        | .admitted => js "admitted")),
      (js "claimedAt", Json.ofNat entry.claimedAt)]
    ++ optionalField (js "admittedAt") (entry.admittedAt.map Json.ofNat))

def InteractiveRequest.toJson (entry : InteractiveRequest) : Json :=
  .obj ([(js "key", .str entry.key),
      (js "sessionKey", .str entry.sessionKey),
      (js "runtimeId", .str entry.runtimeId),
      (js "nodeId", .str entry.nodeId),
      (js "senderId", .str entry.senderId),
      (js "memberId", .str entry.memberId),
      (js "discussionId", .str entry.discussionId),
      (js "chatroomId", .str entry.chatroomId),
      (js "requestId", .str entry.requestId),
      (js "taskId", .str entry.taskId),
      (js "instanceId", .str entry.instanceId),
      (js "stateVersion", Json.ofNat entry.stateVersion),
      (js "round", Json.ofNat entry.round),
      (js "roundRevision", Json.ofNat entry.roundRevision),
      (js "expiresAt", Json.ofNat entry.expiresAt),
      (js "fingerprint", .str entry.fingerprint),
      (js "status", .str entry.status.text)]
    ++ optionalField (js "cancelResult") (entry.cancelResult.map fun result => .str result.text)
    ++ optionalField (js "response") entry.response)

def InteractiveHead.toJson (head : InteractiveHead) : Json :=
  .obj [(js "key", .str head.key), (js "stateVersion", Json.ofNat head.stateVersion),
    (js "round", Json.ofNat head.round), (js "roundRevision", Json.ofNat head.roundRevision)]

def recordToJson {α : Type} (toJson : α → Json) (entries : OrderedMap JsString α) : Json :=
  .obj (entries.entries.map fun e => (e.1, toJson e.2))

def RouterState.toJson (state : RouterState) : Json :=
  .obj [(js "schemaVersion", Json.ofNat 2),
    (js "sessions", .arr (state.sessions.map SessionEntry.toJson)),
    (js "dedup", .arr (state.dedup.map dedupToJson)),
    (js "interactiveRequests", .arr (state.interactiveRequests.map InteractiveRequest.toJson)),
    (js "interactiveSessions", recordToJson Json.str state.interactiveSessions),
    (js "interactiveHeads", recordToJson InteractiveHead.toJson state.interactiveHeads),
    (js "interactiveRooms", recordToJson Json.str state.interactiveRooms)]

/-- Bytes of the file's text: the indented JSON and a final line break. -/
def serializedBytes (state : RouterState) : Nat :=
  byteLength (state.toJson.pretty 0 ++ [0x0A])

/-! ## Transitions -/

/-- What a transition did to its clone of the state. -/
structure Transition (α : Type) where
  changed : Bool
  value : α
  state : RouterState

/-- Nothing changed. -/
def unchanged {α : Type} (state : RouterState) (value : α) : Except RouterStateError (Transition α) := .ok ⟨false, value, state⟩

def changedTo {α : Type} (state : RouterState) (value : α) : Except RouterStateError (Transition α) := .ok ⟨true, value, state⟩

def stateEntry (state : RouterState) (identity : ConversationIdentity) : Option SessionEntry :=
  state.sessions.find? fun entry => entry.conversationKey == conversationKey identity

/-- Assign to the entry `stateEntry` finds. -/
def RouterState.updateEntry (state : RouterState) (identity : ConversationIdentity)
    (f : SessionEntry → SessionEntry) : RouterState :=
  { state with
    sessions := updateFirst (fun entry => entry.conversationKey == conversationKey identity) f
      state.sessions }

def findRequest (state : RouterState) (key : JsString) : Option InteractiveRequest :=
  state.interactiveRequests.find? fun entry => entry.key == key

def checkIdentity (identity : ConversationIdentity) : Except RouterStateError Unit :=
  if validIdentity identity then .ok () else .error .routerStateInvalid

def checkSessionId (value : JsString) : Except RouterStateError Unit :=
  if identifier 4096 value then .ok () else .error .routerStateInvalid

/-! ### Interactive requests -/

def rememberInteractiveRoom (identity : BindingIdentity) (roomId discussionId : JsString)
    (state : RouterState) : Except RouterStateError (Transition Unit) :=
  let key := interactiveSessionKey identity.runtimeId identity.nodeId (js "chatroom") roomId
  match state.interactiveRooms.get? key with
  | some previous =>
    if previous = discussionId then unchanged state () else .error .routerStateInvalid
  | none =>
    if identifier 256 discussionId then
      changedTo { state with interactiveRooms := state.interactiveRooms.set key discussionId } ()
    else .error .schema

/-- Terminal records are dropped at their expiry, all others are kept. -/
def retained (now : Nat) (entry : InteractiveRequest) : Bool :=
  decide (now < entry.expiresAt) || decide (entry.status ≠ .terminal)

/-- The record would take the head of its session back. -/
def behindHead (record : InteractiveRequest) (head : InteractiveHead) : Bool :=
  decide (record.stateVersion < head.stateVersion) || decide (record.round < head.round)
    || (decide (record.round = head.round) && decide (record.roundRevision < head.roundRevision))

def InteractiveRequest.head (record : InteractiveRequest) : InteractiveHead :=
  ⟨record.key, record.stateVersion, record.round, record.roundRevision⟩

/-- The record is a reservation and a record of its session is not terminal. -/
def sessionBusy (state : RouterState) (record : InteractiveRequest) : Bool :=
  decide (record.status = .reserved)
    && state.interactiveRequests.any fun entry =>
      entry.sessionKey == record.sessionKey && decide (entry.status ≠ .terminal)

def RouterState.pushRequest (state : RouterState) (record : InteractiveRequest) : RouterState :=
  { state with
    interactiveRequests := state.interactiveRequests ++ [record]
    interactiveHeads :=
      if record.status = .reserved then
        state.interactiveHeads.set record.sessionKey record.head
      else state.interactiveHeads }

def reserveInteractive (record : InteractiveRequest) (state : RouterState) (now : Nat) :
    Except RouterStateError (Transition (Option InteractiveRequest)) :=
  if !record.schema then .error .schema
  else
    let state :=
      { state with interactiveRequests := state.interactiveRequests.filter (retained now) }
    match findRequest state record.key with
    | some existing => unchanged state (some existing)
    | none =>
      let head := state.interactiveHeads.get? record.sessionKey
      if head.any fun h => h.key == record.key then unchanged state none
      else if record.status = .reserved ∧ head.any (behindHead record) then unchanged state none
      else if record.expiresAt ≤ now ∨ state.interactiveRequests.length ≥ MAX_INTERACTIVE
          ∨ sessionBusy state record then
        unchanged state none
      else changedTo (state.pushRequest record) (some record)

structure InteractiveChanges where
  status : Option InteractiveStatus := none
  cancelResult : Option CancelResult := none
  response : Option Json := none

/-- `Object.assign(entry, changes)`. -/
def InteractiveRequest.assign (entry : InteractiveRequest) (changes : InteractiveChanges) :
    InteractiveRequest :=
  { entry with
    status := changes.status.getD entry.status
    cancelResult := changes.cancelResult.or entry.cancelResult
    response := changes.response.or entry.response }

/-- Another discussion of the runtime owns the session. -/
def ownedByOther (state : RouterState) (entry : InteractiveRequest) (sessionId : JsString) :
    Except RouterStateError Bool :=
  state.interactiveSessions.entries.anyM fun e =>
    if e.2 == sessionId && e.1 != entry.sessionKey then do
      let owner ← parseInteractiveSessionOwner e.1
      return owner.runtimeId == entry.runtimeId
    else return false

/-- A conversation of the runtime knows the session. -/
def knownToConversation (state : RouterState) (runtimeId sessionId : JsString) : Bool :=
  state.sessions.any fun owner =>
    owner.runtimeId == runtimeId && owner.knownSessions.any fun known => known.sessionId == sessionId

/-- The part of `updateInteractive` that files the session of the head. -/
def recordSession (state : RouterState) (entry : InteractiveRequest) (sessionId : JsString) :
    Except RouterStateError RouterState := do
  if ← ownedByOther state entry sessionId then throw .sessionConflict
  if knownToConversation state entry.runtimeId sessionId then throw .sessionConflict
  checkSessionId sessionId
  return { state with
    interactiveSessions := state.interactiveSessions.set entry.sessionKey sessionId }

def updateInteractive (key : JsString) (changes : InteractiveChanges) (sessionId : Option JsString)
    (state : RouterState) : Except RouterStateError (Transition InteractiveRequest) :=
  match findRequest state key with
  | none => .error .routerStateInvalid
  | some found =>
    let entry := found.assign changes
    let state :=
      { state with
        interactiveRequests := updateFirst (fun item => item.key == key)
          (fun item => item.assign changes) state.interactiveRequests }
    match sessionId with
    | some id =>
      if (state.interactiveHeads.get? entry.sessionKey).any fun head => head.key == key then do
        let state ← recordSession state entry id
        changedTo state entry
      else changedTo state entry
    | none => changedTo state entry

/-! ### Conversations -/

section

variable (identity : ConversationIdentity)

def clearCurrent (state : RouterState) (now : Nat) :
    Except RouterStateError (Transition Unit) := do
  checkIdentity identity
  match stateEntry state identity with
  | none => unchanged state ()
  | some entry =>
    if entry.currentSessionId.isNone then unchanged state ()
    else
      changedTo (state.updateEntry identity fun entry =>
        { entry with currentSessionId := none, updatedAt := now }) ()

def switchKnown (sessionId : JsString) (state : RouterState)
    (now : Nat) : Except RouterStateError (Transition Bool) := do
  checkIdentity identity
  match stateEntry state identity with
  | none => unchanged state false
  | some entry =>
    if !entry.knownSessions.any fun session => session.sessionId == sessionId then
      unchanged state false
    else if entry.currentSessionId = some sessionId then unchanged state true
    else
      changedTo (state.updateEntry identity fun entry =>
        { entry with currentSessionId := some sessionId, updatedAt := now }) true

def deleteKnown (sessionId : JsString) (state : RouterState)
    (now : Nat) : Except RouterStateError (Transition Bool) := do
  checkIdentity identity
  match stateEntry state identity with
  | none => unchanged state false
  | some entry =>
    if !entry.knownSessions.any fun session => session.sessionId == sessionId then
      unchanged state false
    else
      changedTo (state.updateEntry identity fun entry =>
        { entry with
          knownSessions := entry.knownSessions.eraseP fun session => session.sessionId == sessionId
          currentSessionId :=
            if entry.currentSessionId = some sessionId then none else entry.currentSessionId
          updatedAt := now }) true

def createEntry (now : Nat) : SessionEntry :=
  { identity with
    conversationKey := Conversation.conversationKey identity
    bindingKey := Conversation.bindingKey identity.toBindingIdentity
    currentSessionId := none
    knownSessions := []
    updatedAt := now }

end

def assertSessionAvailable (state : RouterState) (identity : ConversationIdentity)
    (sessionId : JsString) : Except RouterStateError Unit := do
  let owned ← state.interactiveSessions.entries.anyM fun e =>
    if e.2 == sessionId then do
      let owner ← parseInteractiveSessionOwner e.1
      return owner.runtimeId == identity.runtimeId
    else return false
  if owned then throw .sessionConflict
  if state.sessions.any fun entry =>
      entry.runtimeId == identity.runtimeId && entry.conversationKey != conversationKey identity
        && entry.knownSessions.any fun session => session.sessionId == sessionId then
    throw .sessionConflict

/-- The `while` loop of `acceptAuthoritative`: `n` times, drop the oldest
session that is not the current one. -/
def dropOldest (current : JsString) : Nat → List KnownSession →
    Except RouterStateError (List KnownSession)
  | 0, known => .ok known
  | n + 1, known =>
    if known.any fun session => session.sessionId != current then
      dropOldest current n (known.eraseP fun session => session.sessionId != current)
    else .error .routerStateInvalid

def acceptAuthoritative (entry : SessionEntry) (sessionId : JsString) (now : Nat) :
    Except RouterStateError SessionEntry := do
  let known := (entry.knownSessions.eraseP fun session => session.sessionId == sessionId)
    ++ [⟨sessionId, now⟩]
  let known ← dropOldest sessionId (known.length - MAX_KNOWN_SESSIONS) known
  return { entry with knownSessions := known, currentSessionId := some sessionId, updatedAt := now }

structure EventSession where
  conversation : ConversationIdentity
  submittedResumeSessionId : Option JsString
  status : Option JsString
  authoritativeSessionId : Option JsString

/-- Drop the submitted session that could not be resumed. -/
def SessionEntry.clearSubmitted (entry : SessionEntry) (submitted : JsString) (now : Nat) :
    SessionEntry :=
  { entry with
    currentSessionId := none
    knownSessions := entry.knownSessions.filter fun session => session.sessionId != submitted
    updatedAt := now }

/-- The submitted session when it is the one to clear. -/
def clearable (input : EventSession) (entry : Option SessionEntry) : Option JsString :=
  match input.submittedResumeSessionId with
  | none => none
  | some submitted =>
    if input.status = some (js "resume_invalidated") ∧ entry.bind SessionEntry.currentSessionId = some submitted then
      some submitted
    else none

def applyEventSession (input : EventSession) (state : RouterState) (now : Nat) : Except RouterStateError (Transition Unit) := do
  let identity := input.conversation
  checkIdentity identity
  if let some submitted := input.submittedResumeSessionId then checkSessionId submitted
  if let some authoritative := input.authoritativeSessionId then checkSessionId authoritative
  let found := stateEntry state identity
  let cleared := clearable input found
  if cleared.isNone && input.authoritativeSessionId.isNone then unchanged state ()
  else
    if let some authoritative := input.authoritativeSessionId then
      assertSessionAvailable state identity authoritative
    let entry := found.getD (createEntry identity now)
    let state :=
      if found.isSome then state else { state with sessions := state.sessions ++ [entry] }
    let entry :=
      match cleared with
      | some submitted => entry.clearSubmitted submitted now
      | none => entry
    let entry ←
      match input.authoritativeSessionId with
      | some authoritative => acceptAuthoritative entry authoritative now
      | none => .ok entry
    changedTo (state.updateEntry identity fun _ => entry) ()

/-! ### Messages -/

inductive ClaimResult where
  | claimed (key claimId : JsString)
  | duplicate (key : JsString)

def claimMessage (runtime messageUid claimId : JsString) (state : RouterState) (now : Nat) :
    Except RouterStateError (Transition ClaimResult) :=
  match claimDedup state.dedup runtime messageUid claimId now with
  | none => .error .routerStateInvalid
  | some (.capacity _ _) => .error .dedupCapacity
  | some (.duplicate key entries) => unchanged { state with dedup := entries } (.duplicate key)
  | some (.claimed key claimId entries) =>
    changedTo { state with dedup := entries } (.claimed key claimId)

def admitMessage (key claimId : JsString) (state : RouterState) (now : Nat) : Except RouterStateError (Transition Bool) :=
  let transition := admitDedup state.dedup key claimId now
  .ok ⟨transition.changed, transition.accepted, { state with dedup := transition.entries }⟩

def releaseMessage (key claimId : JsString) (state : RouterState) : Except RouterStateError (Transition Bool) :=
  let transition := releaseDedup state.dedup key claimId
  .ok ⟨transition.changed, transition.accepted, { state with dedup := transition.entries }⟩

end ClawMessenger.Ports.SessionStore
