import ClawMessenger.Ports.DiscussionV2
import ClawMessenger.Verified.OrderedMap
import ClawMessenger.Verified.Machine

/-!
# The replay and cancellation guard

`DiscussionV2Guard` remembers which work commands it let in (`logical`), which
of them still run (`active`), which cancellations arrived (`cancellations`) and
which artifact acknowledgements are awaited (`pendingAcks`).  A command is let
in once; a cancellation stops everything of its sender and discussion that it
covers, now and for as long as it is retained.
-/

namespace ClawMessenger.Ports.DiscussionV2

open Verified Verified.JsString
open Verified.Json (stringify)

/-! ## State -/

/-- An admitted command; `none` as the expiry is `Infinity`. -/
structure LogicalEntry where
  active : Bool
  expiresAt : Option Int

/-- What `pruneLogical` takes away. -/
def LogicalEntry.expired (entry : LogicalEntry) (now : Int) : Bool :=
  !entry.active && entry.expiresAt.any fun expiresAt => decide (expiresAt ≤ now)

structure ActiveEntry where
  key : JsString
  senderId : JsString
  discussionId : JsString
  stateVersion : Nat
  round : Nat
deriving DecidableEq

structure Cancellation where
  senderId : JsString
  discussionId : JsString
  stateVersion : Nat
  round : Nat

structure ArtifactAckExpectation where
  senderId : JsString
  discussionId : JsString
  requestId : JsString
  stateVersion : Nat
  round : Nat
  updateId : JsString
  artifactId : Option JsString
  artifactVersion : Nat

structure PendingAck extends ArtifactAckExpectation where
  expiresAt : Int

structure DiscussionV2Guard where
  logical : OrderedMap JsString LogicalEntry := ∅
  active : OrderedMap JsString ActiveEntry := ∅
  cancellations : OrderedMap JsString Cancellation := ∅
  pendingAcks : OrderedMap JsString PendingAck := ∅
  final : Bool := false

/-! ## Answers -/

inductive ClaimResult where
  | accepted (key : JsString)
  | wrongTarget
  | replay
  | cancelled
  | capacity
  | disposed
  | invalid

inductive CancelResult where
  | accepted (abortedKeys : List JsString) (clearSenderId clearDiscussionId : JsString)
  | replay
  | capacity
  | disposed
  | invalid

inductive RegisterAckResult where
  | accepted
  | duplicate
  | capacity
  | disposed
  | invalid

inductive AcceptAckResult where
  | accepted
  | unknown
  | expired
  | disposed
  | invalid

/-! ## Keys -/

def cancels (cancellation : Cancellation) (stateVersion round : Nat) : Bool :=
  decide (cancellation.stateVersion > stateVersion) ||
    (cancellation.stateVersion == stateVersion && cancellation.round == round)

def cancelKey (cancellation : Cancellation) : JsString :=
  stringify (.arr [.str cancellation.senderId, .str cancellation.discussionId,
    Json.ofNat cancellation.stateVersion, Json.ofNat cancellation.round])

def ackKey (senderId discussionId requestId : JsString) (stateVersion round : Nat)
    (updateId : JsString) : JsString :=
  stringify (.arr [.str senderId, .str discussionId, .str requestId, Json.ofNat stateVersion,
    Json.ofNat round, .str updateId])

def ArtifactAckExpectation.key (value : ArtifactAckExpectation) : JsString :=
  ackKey value.senderId value.discussionId value.requestId value.stateVersion value.round
    value.updateId

def safeInteger (minimum n : Nat) : Bool := decide (minimum ≤ n ∧ n ≤ Decimal.maxSafeInteger)

def validAckExpectation (value : ArtifactAckExpectation) : Bool :=
  boundedIdText value.senderId && boundedIdText value.discussionId &&
  boundedIdText value.requestId && safeInteger 1 value.stateVersion &&
  safeInteger 0 value.round && boundedIdText value.updateId &&
  value.artifactId.all boundedIdText && safeInteger 1 value.artifactVersion

/-- The `msg_type` and envelope of a work command. -/
def work? : DiscussionV2Command → Option (JsString × DiscussionV2Envelope)
  | .hostTurn envelope _ => some (js "discussion_host_turn", envelope)
  | .assignment envelope _ _ _ => some (js "discussion_assignment", envelope)
  | .cancel .. => none
  | .artifactAck .. => none

/-- `command.msg_type === 'discussion_assignment' && command.targetId !== nodeId`. -/
def wrongTarget (command : DiscussionV2Command) (nodeId : JsString) : Bool :=
  match command with
  | .assignment _ _ targetId _ => targetId != nodeId
  | _ => false

def discussionV2LogicalKey (senderId msgType : JsString) (envelope : DiscussionV2Envelope) :
    JsString :=
  stringify (.arr [.str senderId, .str envelope.discussionId, .str envelope.requestId,
    Json.ofNat envelope.stateVersion, .str msgType, Json.ofNat envelope.round])

namespace DiscussionV2Guard

/-! ## Operations -/

/-- The cancellation covers the state version and round in a discussion of a
sender. -/
def covers (cancellation : Cancellation) (senderId discussionId : JsString)
    (stateVersion round : Nat) : Bool :=
  cancellation.senderId == senderId && cancellation.discussionId == discussionId &&
    cancels cancellation stateVersion round

section

variable (g : DiscussionV2Guard)

def isCancelled (senderId : JsString) (envelope : DiscussionV2Envelope) :
    Bool :=
  g.cancellations.values.any fun cancellation =>
    covers cancellation senderId envelope.discussionId envelope.stateVersion envelope.round

def pruneLogical (now : Int) : DiscussionV2Guard :=
  { g with logical := g.logical.filter fun _ entry => !entry.expired now }

def pruneAcks (now : Int) : DiscussionV2Guard :=
  { g with pendingAcks := g.pendingAcks.filter fun _ entry => !decide (entry.expiresAt ≤ now) }

/-- A key is let in. -/
def admitKey (key senderId : JsString) (envelope : DiscussionV2Envelope) :
    DiscussionV2Guard :=
  { g with
    logical := g.logical.set key ⟨true, none⟩
    active := g.active.set key
      ⟨key, senderId, envelope.discussionId, envelope.stateVersion, envelope.round⟩ }

end

def claim (now : Int) (g : DiscussionV2Guard) (senderId : JsString)
    (command : DiscussionV2Command) (nodeId : JsString) : ClaimResult × DiscussionV2Guard :=
  if g.final then (.disposed, g)
  else if !boundedIdText senderId || !boundedIdText nodeId then (.invalid, g)
  else
    match work? command with
    | none => (.invalid, g)
    | some (msgType, envelope) =>
      if wrongTarget command nodeId then (.wrongTarget, g)
      else if g.isCancelled senderId envelope then (.cancelled, g)
      else
        let g := g.pruneLogical now
        let key := discussionV2LogicalKey senderId msgType envelope
        if g.logical.has key then (.replay, g)
        else if g.logical.size ≥ Limits.maxLogicalTombstones then (.capacity, g)
        else (.accepted key, g.admitKey key senderId envelope)

/-- `entry.active = false` with its expiry, for a key that is there. -/
def retire (logical : OrderedMap JsString LogicalEntry) (now : Int) (key : JsString) :
    OrderedMap JsString LogicalEntry :=
  match logical.get? key with
  | none => logical
  | some _ => logical.set key ⟨false, some (now + Limits.logicalTombstoneTtlMs)⟩

def complete (now : Int) (g : DiscussionV2Guard) (key : JsString) : Bool × DiscussionV2Guard :=
  if g.final || !g.active.has key then (false, g)
  else
    let g := { g with active := g.active.erase key }
    if g.logical.has key then (true, { g with logical := retire g.logical now key })
    else (false, g)

def isCurrent (g : DiscussionV2Guard) (key : JsString) : Bool := !g.final && g.active.has key

/-- Make room for a cancellation: of a full map the oldest entry goes. -/
def evictOldest (cancellations : OrderedMap JsString Cancellation) :
    Option (OrderedMap JsString Cancellation) :=
  if cancellations.size ≥ Limits.maxCancelTombstones then
    cancellations.keys.head?.map cancellations.erase
  else some cancellations

def coversActive (cancellation : Cancellation) (active : ActiveEntry) : Bool :=
  covers cancellation active.senderId active.discussionId active.stateVersion active.round

def coversAck (cancellation : Cancellation) (pending : ArtifactAckExpectation) : Bool :=
  covers cancellation pending.senderId pending.discussionId pending.stateVersion pending.round

def abortedKeys (g : DiscussionV2Guard) (cancellation : Cancellation) : List JsString :=
  (g.active.entries.filter fun e => coversActive cancellation e.2).map Prod.fst

/-- A fresh cancellation takes effect. -/
def applyCancellation (now : Int) (g : DiscussionV2Guard)
    (retained : OrderedMap JsString Cancellation) (cancellation : Cancellation) :
    DiscussionV2Guard :=
  { g with
    cancellations := retained.set (cancelKey cancellation) cancellation
    active := g.active.filter fun _ active => !coversActive cancellation active
    logical := (g.abortedKeys cancellation).foldl (fun logical key => retire logical now key)
      g.logical
    pendingAcks := g.pendingAcks.filter fun _ pending =>
      !coversAck cancellation pending.toArtifactAckExpectation }

def cancel (now : Int) (g : DiscussionV2Guard) (senderId : JsString) (value : Json) :
    CancelResult × DiscussionV2Guard :=
  if g.final then (.disposed, g)
  else if !boundedIdText senderId then (.invalid, g)
  else
    match parseDiscussionV2Command value with
    | some (.cancel envelope _) =>
      let cancellation : Cancellation :=
        ⟨senderId, envelope.discussionId, envelope.stateVersion, envelope.round⟩
      if g.cancellations.has (cancelKey cancellation) then (.replay, g)
      else
        match evictOldest g.cancellations with
        | none => (.capacity, g)
        | some retained =>
          (.accepted (g.abortedKeys cancellation) senderId envelope.discussionId,
            g.applyCancellation now retained cancellation)
    | _ => (.invalid, g)

def registerArtifactAck (now : Int) (g : DiscussionV2Guard) (value : ArtifactAckExpectation) :
    RegisterAckResult × DiscussionV2Guard :=
  if g.final then (.disposed, g)
  else if !validAckExpectation value then (.invalid, g)
  else
    let g := g.pruneAcks now
    if g.pendingAcks.has value.key then (.duplicate, g)
    else if g.pendingAcks.size ≥ Limits.maxPendingAcks then (.capacity, g)
    else
      (.accepted,
        { g with
          pendingAcks := g.pendingAcks.set value.key
            { toArtifactAckExpectation := value
              expiresAt := now + Limits.ackTimeoutMs } })

def acceptArtifactAck (now : Int) (g : DiscussionV2Guard) (senderId : JsString) (value : Json) :
    AcceptAckResult × DiscussionV2Guard :=
  if g.final then (.disposed, g)
  else if !boundedIdText senderId then (.invalid, g)
  else
    match parseDiscussionV2Command value with
    | some (.artifactAck envelope updateId artifactId artifactVersion) =>
      let key := ackKey senderId envelope.discussionId envelope.requestId envelope.stateVersion
        envelope.round updateId
      match g.pendingAcks.get? key with
      | none => (.unknown, g)
      | some pending =>
        if pending.expiresAt ≤ now then
          (.expired, { g with pendingAcks := g.pendingAcks.erase key })
        else if pending.artifactVersion ≠ artifactVersion
            ∨ pending.artifactId.any (· != artifactId) then
          (.unknown, g)
        else (.accepted, { g with pendingAcks := g.pendingAcks.erase key })
    | _ => (.invalid, g)

def dispose (g : DiscussionV2Guard) : DiscussionV2Guard :=
  if g.final then g
  else { logical := ∅, active := ∅, cancellations := ∅, pendingAcks := ∅, final := true }

end DiscussionV2Guard

/-! ## Runs -/

/-- A call of one of the public methods. -/
inductive GuardCall where
  | claim (senderId : JsString) (command : DiscussionV2Command) (nodeId : JsString)
  | complete (key : JsString)
  | cancel (senderId : JsString) (value : Json)
  | registerArtifactAck (value : ArtifactAckExpectation)
  | acceptArtifactAck (senderId : JsString) (value : Json)
  | isCurrent (key : JsString)
  | pendingAckCount
  | dispose

/-- A call and what the clock shows. -/
structure GuardInput where
  now : Int
  call : GuardCall

inductive GuardAnswer where
  | claimed (result : ClaimResult)
  | completed (done : Bool)
  | cancelled (result : CancelResult)
  | registered (result : RegisterAckResult)
  | acknowledged (result : AcceptAckResult)
  | current (value : Bool)
  | count (value : Nat)
  | disposed

def serveGuard (g : DiscussionV2Guard) (input : GuardInput) : GuardAnswer × DiscussionV2Guard :=
  match input.call with
  | .claim senderId command nodeId =>
    let (result, g) := g.claim input.now senderId command nodeId
    (.claimed result, g)
  | .complete key =>
    let (done, g) := g.complete input.now key
    (.completed done, g)
  | .cancel senderId value =>
    let (result, g) := g.cancel input.now senderId value
    (.cancelled result, g)
  | .registerArtifactAck value =>
    let (result, g) := g.registerArtifactAck input.now value
    (.registered result, g)
  | .acceptArtifactAck senderId value =>
    let (result, g) := g.acceptArtifactAck input.now senderId value
    (.acknowledged result, g)
  | .isCurrent key => (.current (g.isCurrent key), g)
  | .pendingAckCount =>
    let g := g.pruneAcks input.now
    (.count g.pendingAcks.size, g)
  | .dispose => (.disposed, g.dispose)

end ClawMessenger.Ports.DiscussionV2
