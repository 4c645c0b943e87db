import ClawMessenger.Ports.RouterOutput
import ClawMessenger.Verified.JsonShape

/-!
# Discussion tokens, version 1

`protocol/discussion-v1.ts` and `#sendV1Advance` of the router.  A token names the
order of the speakers, the current one and the round.  The current speaker answers by
a token for the next one, in the next round after the last; after the last round it
ends the discussion.

The builder parses what it has built, so a token that is sent is one that every
receiver accepts.
-/

namespace ClawMessenger.Ports.DiscussionV1

open Verified Verified.JsString Verified.Json
open RouterOutput (utf8Prefix)

/-! ## Tokens -/

inductive DiscussionV1Action
  | passTurn
  | endDiscussion
  | abort
  | heartbeat
  deriving DecidableEq, Repr

def DiscussionV1Action.text : DiscussionV1Action → JsString
  | .passTurn => js "pass_turn"
  | .endDiscussion => js "end_discussion"
  | .abort => js "abort"
  | .heartbeat => js "heartbeat"

structure DiscussionV1Payload where
  groupId : JsString
  turnOrder : List JsString
  currentSpeaker : JsString
  currentSpeakerName : Option JsString
  nextSpeaker : Option JsString
  round : Nat
  maxRounds : Nat
  originatorUser : JsString
  originatorText : JsString
  originatorMsgUid : JsString
  startedAt : Nat
  mentionOrdered : Bool
  lastSpeakerResponse : Option JsString
  deriving DecidableEq, Repr

structure DiscussionV1Message where
  discussionId : JsString
  action : DiscussionV1Action
  payload : DiscussionV1Payload
  timestamp : Nat
  deriving DecidableEq, Repr

/-! ## Checks -/

/-- `boundedIdentifier` -/
def boundedIdentifier (value : Json) : Option JsString := value.text?.filter fun s => boundedText s 128

/-- `boundedText` of the source, in bytes -/
def boundedBytes (maxBytes : Nat) (allowEmpty : Bool) (value : Json) : Option JsString :=
  value.text?.filter fun s => (allowEmpty || decide (0 < s.length)) && decide (byteLength s ≤ maxBytes)

def safeInteger (min : Nat) (max : Nat) (value : Json) : Option Nat :=
  value.nat?.filter fun n => decide (min ≤ n ∧ n ≤ max)

def MAX_SAFE_INTEGER : Nat := Decimal.maxSafeInteger

def boolean : Json → Option Bool
  | .bool b => some b
  | _ => none

section

variable {α : Type} (value : Json) (key : JsString) (check : Json → Option α)

/-- A field that may be missing. -/
def optionalField : Option (Option α) :=
  match value.field? key with
  | none => some none
  | some v => (check v).map some

def required : Option α :=
  (value.field? key).bind check

end

def turnOrder : Json → Option (List JsString)
  | .arr members => (members.mapM boundedIdentifier).filter fun order =>
    decide (1 ≤ order.length ∧ order.length ≤ 64 ∧ order.Nodup)
  | _ => none

def action (value : Json) : Option DiscussionV1Action :=
  [DiscussionV1Action.passTurn, .endDiscussion, .abort, .heartbeat].find? fun a => value.text? == some a.text

def topKeys : List JsString :=
  [js "msg_type", js "service", js "discussion_id", js "version", js "action", js "payload", js "timestamp"]

def payloadRequiredKeys : List JsString :=
  [js "group_id", js "turn_order", js "current_speaker", js "round", js "max_rounds", js "originator_user",
    js "originator_text", js "originator_msg_uid", js "started_at", js "mention_ordered"]

def payloadOptionalKeys : List JsString := [js "current_speaker_name", js "next_speaker", js "last_speaker_response"]

/-- What `parsePayload` asks of the fields together. -/
def payloadAgrees (p : DiscussionV1Payload) (tokenAction : DiscussionV1Action) : Bool :=
  decide (p.round ≤ p.maxRounds) && p.turnOrder.contains p.currentSpeaker &&
    p.nextSpeaker.all p.turnOrder.contains &&
    (tokenAction != .passTurn || p.nextSpeaker.isSome) &&
    (!(tokenAction == .endDiscussion || tokenAction == .abort) || p.nextSpeaker.isNone)

def payloadFields (raw : Json) : Option DiscussionV1Payload := do
  let groupId ← required raw (js "group_id") boundedIdentifier
  let currentSpeaker ← required raw (js "current_speaker") boundedIdentifier
  let originatorUser ← required raw (js "originator_user") boundedIdentifier
  let originatorMsgUid ← required raw (js "originator_msg_uid") boundedIdentifier
  let originatorText ← required raw (js "originator_text") (boundedBytes 100000 false)
  let round ← required raw (js "round") (safeInteger 1 100)
  let maxRounds ← required raw (js "max_rounds") (safeInteger 1 100)
  let startedAt ← required raw (js "started_at") (safeInteger 1 MAX_SAFE_INTEGER)
  let mentionOrdered ← required raw (js "mention_ordered") boolean
  let turnOrder ← required raw (js "turn_order") turnOrder
  let currentSpeakerName ← optionalField raw (js "current_speaker_name") (boundedBytes 500 false)
  let lastSpeakerResponse ← optionalField raw (js "last_speaker_response") (boundedBytes 100000 true)
  let nextSpeaker ← optionalField raw (js "next_speaker") boundedIdentifier
  return {
    groupId, turnOrder, currentSpeaker, currentSpeakerName, nextSpeaker, round, maxRounds, originatorUser,
    originatorText, originatorMsgUid, startedAt, mentionOrdered, lastSpeakerResponse }

def parsePayload (raw : Json) (tokenAction : DiscussionV1Action) : Option DiscussionV1Payload :=
  if raw.isObject && raw.exactKeys payloadRequiredKeys payloadOptionalKeys then
    (payloadFields raw).filter fun p => payloadAgrees p tokenAction
  else none

def parseDiscussionV1 (raw : Json) : Option DiscussionV1Message :=
  if raw.isObject && raw.exactKeys topKeys [] && raw.fieldIs (js "msg_type") (isText (js "discussion_token")) &&
      raw.fieldIs (js "service") (isText (js "openclaw_coord")) &&
      raw.fieldIs (js "version") (fun v => v.nat? == some 1) then do
    let discussionId ← required raw (js "discussion_id") boundedIdentifier
    let action ← required raw (js "action") action
    let timestamp ← required raw (js "timestamp") (safeInteger 0 MAX_SAFE_INTEGER)
    let payload ← required raw (js "payload") fun payload => parsePayload payload action
    return { discussionId, action, payload, timestamp }
  else none

/-! ## Building -/

/-- A field of an object, absent where it is `undefined`. -/
def optional (key : JsString) (value : Option JsString) : List (JsString × Json) :=
  value.toList.map fun s => (key, .str s)

def DiscussionV1Payload.toJson (p : DiscussionV1Payload) : Json :=
  .obj ([(js "group_id", .str p.groupId), (js "turn_order", .arr (p.turnOrder.map .str)),
      (js "current_speaker", .str p.currentSpeaker)] ++ optional (js "current_speaker_name") p.currentSpeakerName ++
    optional (js "next_speaker") p.nextSpeaker ++
    [(js "round", Json.ofNat p.round), (js "max_rounds", Json.ofNat p.maxRounds),
      (js "originator_user", .str p.originatorUser), (js "originator_text", .str p.originatorText),
      (js "originator_msg_uid", .str p.originatorMsgUid), (js "started_at", Json.ofNat p.startedAt),
      (js "mention_ordered", .bool p.mentionOrdered)] ++ optional (js "last_speaker_response") p.lastSpeakerResponse)

def DiscussionV1Message.toJson (m : DiscussionV1Message) : Json :=
  .obj [(js "msg_type", .str (js "discussion_token")), (js "service", .str (js "openclaw_coord")),
    (js "discussion_id", .str m.discussionId), (js "version", Json.ofNat 1), (js "action", .str m.action.text),
    (js "payload", m.payload.toJson), (js "timestamp", Json.ofNat m.timestamp)]

/-- Nothing where the source throws. -/
def buildDiscussionV1 (action : DiscussionV1Action) (discussionId : JsString) (payload : DiscussionV1Payload)
    (timestamp : Nat) : Option DiscussionV1Message :=
  parseDiscussionV1 (DiscussionV1Message.toJson ⟨discussionId, action, payload, timestamp⟩)

/-! ## The next speaker -/

inductive DiscussionV1Advance
  | passTurn (nextSpeaker : JsString) (round : Nat)
  | endDiscussion (round : Nat)
  | invalid

def advance (payload : DiscussionV1Payload) (speaker : JsString) : DiscussionV1Advance :=
  let index := payload.turnOrder.idxOf speaker
  if payload.turnOrder.length ≤ index ∨ payload.round < 1 ∨ payload.maxRounds < 1 then .invalid
  else
    match payload.turnOrder[index + 1]? with
    | some next => .passTurn next payload.round
    | none =>
      if payload.round < payload.maxRounds then .passTurn (payload.turnOrder.headD []) (payload.round + 1)
      else .endDiscussion payload.round

def advanceAfterCompleted (payload : DiscussionV1Payload) (completedSpeaker : JsString) : DiscussionV1Advance :=
  advance payload completedSpeaker

def advanceAfterTimeout (payload : DiscussionV1Payload) (timedOutSpeaker : JsString) : DiscussionV1Advance :=
  advance payload timedOutSpeaker

/-! ## The router -/

/-- `#time`, of what the clock gives. -/
def time (now : Json) : Nat := now.nat?.getD 0

/-- How a turn ended: what was answered, whether it timed out, and the clock then. -/
structure Turn where
  response : JsString
  timeout : Bool
  now : Json

/-- The token that `#sendV1Advance` sends for a node. -/
def sendV1Advance (nodeId : JsString) (message : DiscussionV1Message) (turn : Turn) : Option DiscussionV1Message :=
  let step :=
    if turn.timeout then advanceAfterTimeout message.payload nodeId
    else advanceAfterCompleted message.payload nodeId
  let base := { message.payload with lastSpeakerResponse := some (utf8Prefix turn.response 100000) }
  match step with
  | .passTurn nextSpeaker round =>
    buildDiscussionV1 .passTurn message.discussionId
      { base with currentSpeaker := nextSpeaker, nextSpeaker := some nextSpeaker, round := round } (time turn.now)
  | .endDiscussion round =>
    buildDiscussionV1 .endDiscussion message.discussionId { base with round := round, nextSpeaker := none }
      (time turn.now)
  | .invalid => buildDiscussionV1 .abort message.discussionId { base with nextSpeaker := none } (time turn.now)

/-- The current speakers one after another, with their rounds, as long as the token
passes the turn; nothing where a token cannot be built. -/
def walk : List Turn → DiscussionV1Message → Option (List (Nat × JsString) × DiscussionV1Message)
  | [], message => some ([], message)
  | turn :: turns, message =>
    if message.action = .passTurn then do
      let next ← sendV1Advance message.payload.currentSpeaker message turn
      let (visited, last) ← walk turns next
      return ((message.payload.round, message.payload.currentSpeaker) :: visited, last)
    else some ([], message)

end ClawMessenger.Ports.DiscussionV1
