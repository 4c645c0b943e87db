import ClawMessenger.Verified.Base64
import ClawMessenger.Verified.OrderedMap

/-!
# The discussion wire

A record whose JSON text does not fit one provider frame travels as numbered
chunks of 5700 bytes, base64 inside JSON frames of at most 9000 bytes.
`encodeDiscussionWire` cuts a record up; a `DiscussionWireReassembler` collects
the chunks of each (sender, message) in any order, checks the digest of the
whole, and remembers completed messages for a while so that late copies are
replays.

SHA-256 is a parameter `digest` of the model: its text form is only ever
compared, and only its shape (64 lower-case hexadecimal digits) matters.
Every `accept` takes the clock reading it makes.
-/

namespace ClawMessenger.Ports.DiscussionWire

open Verified Verified.JsString
open Verified.Json (parse stringify)

/-! ## Limits -/

def WIRE_BYTE_LIMIT : Nat := 9000

def RAW_CHUNK_BYTES : Nat := 5700

def MAX_MESSAGE_BYTES : Nat := 8 * 1024 * 1024

def MAX_CHUNKS : Nat := 2048

def DEFAULT_TTL_MS : Nat := 10 * 60 * 1000

def MAX_INFLIGHT_MESSAGES : Nat := 64

def MAX_INFLIGHT_BYTES : Nat := 16 * 1024 * 1024

def MAX_COMPLETED : Nat := 1024

/-- The limits a reassembler works with once constructed. -/
structure Limits where
  ttlMs : Nat
  maxMessageBytes : Nat
  maxChunks : Nat
  maxInflightMessages : Nat
  maxInflightBytes : Nat
  maxCompleted : Nat

/-- The limits of a reassembler constructed without options. -/
def Limits.default : Limits :=
  ⟨DEFAULT_TTL_MS, MAX_MESSAGE_BYTES, MAX_CHUNKS, MAX_INFLIGHT_MESSAGES, MAX_INFLIGHT_BYTES,
    MAX_COMPLETED⟩

def boundedId (value : JsString) : Bool := boundedText value 128

/-! ## Encoding -/

/-- `whole.subarray(i * RAW_CHUNK_BYTES, (i + 1) * RAW_CHUNK_BYTES)`. -/
def chunkBytes (whole : List UInt8) (chunkIndex : Nat) : List UInt8 :=
  (whole.drop (chunkIndex * RAW_CHUNK_BYTES)).take RAW_CHUNK_BYTES

/-- `Math.ceil(length / RAW_CHUNK_BYTES)`. -/
def chunkCount (length : Nat) : Nat := (length + (RAW_CHUNK_BYTES - 1)) / RAW_CHUNK_BYTES

def wireMessageId (sha256 : JsString) : JsString := js "wire_" ++ sha256

/-- The payload's own version, or 2. -/
def declaredVersion (payload : Json) : Json :=
  (payload.field? (js "protocolVersion")).getD (Json.ofNat 2)

/-- The payload's `discussionId`, when it is a bounded id. -/
def payloadDiscussionId (payload : Json) : Option JsString :=
  ((payload.field? (js "discussionId")).bind Json.text?).filter boundedId

/-- One frame, before printing. -/
def frameValue (payload : Json) (sha256 : JsString) (index count : Nat) (chunk : List UInt8) :
    Json :=
  .obj ([(js "msg_type", .str (js "discussion_wire_chunk")),
      (js "protocolVersion", declaredVersion payload),
      (js "messageId", .str (wireMessageId sha256)),
      (js "sha256", .str sha256),
      (js "chunkIndex", Json.ofNat index),
      (js "chunkCount", Json.ofNat count)]
    ++ ((payloadDiscussionId payload).map fun id => (js "discussionId", Json.str id)).toList
    ++ [(js "data", .str (Base64.encode chunk))])

def encodeFrame (payload : Json) (sha256 : JsString) (whole : List UInt8) (count index : Nat) :
    Except String JsString :=
  let frame := stringify (frameValue payload sha256 index count (chunkBytes whole index))
  if byteLength frame > WIRE_BYTE_LIMIT then
    .error "discussion wire frame exceeds provider limit"
  else
    .ok frame

def encodeDiscussionWire (digest : List UInt8 → JsString) (payload : Json) :
    Except String (List JsString) :=
  let serialized := stringify payload
  let whole := utf8 serialized
  if whole.length ≤ WIRE_BYTE_LIMIT then
    .ok [serialized]
  else if whole.length > MAX_MESSAGE_BYTES then
    .error "discussion wire payload exceeds 8 MiB"
  else if chunkCount whole.length > MAX_CHUNKS then
    .error "discussion wire payload has too many chunks"
  else
    (List.range (chunkCount whole.length)).mapM
      (encodeFrame payload (digest whole) whole (chunkCount whole.length))

/-! ## Reassembler state -/

structure PartialMessage where
  protocolVersion : Nat
  senderId : JsString
  sha256 : JsString
  chunkCount : Nat
  discussionId : Option JsString
  expiresAt : Int
  chunks : OrderedMap Nat (List UInt8)
  receivedBytes : Nat

def PartialMessage.addChunk (message : PartialMessage) (index : Nat) (raw : List UInt8)
    (expiresAt : Int) : PartialMessage :=
  { message with
    chunks := message.chunks.set index raw
    receivedBytes := message.receivedBytes + raw.length
    expiresAt := expiresAt }

structure CompletedMessage where
  expiresAt : Int
  protocolVersion : Nat

structure Reassembler where
  partials : OrderedMap JsString PartialMessage := ∅
  completed : OrderedMap JsString CompletedMessage := ∅
  storedBytes : Nat := 0
  disposed : Bool := false

inductive DiscussionWireResult where
  | passthrough (payload : Json)
  | incomplete
  | invalid
  | replay
  | complete (payload : Json) (serialized : JsString)

namespace Reassembler

section

variable (r : Reassembler)

def inflightCount : Nat := r.partials.size

def inflightBytes : Nat := r.storedBytes

def putMessage (key : JsString) (message : PartialMessage)
    (bytes : Nat) : Reassembler :=
  { r with partials := r.partials.set key message, storedBytes := r.storedBytes + bytes }

def remove (key : JsString) : Reassembler :=
  match r.partials.get? key with
  | none => r
  | some message =>
    { r with
      storedBytes := r.storedBytes - message.receivedBytes
      partials := r.partials.erase key }

/-- Remove the partial messages that satisfy a test, in one pass over the map. -/
def removeWhere (test : PartialMessage → Bool) : Reassembler :=
  r.partials.entries.foldl (fun r entry => if test entry.2 then r.remove entry.1 else r) r

def cleanup (now : Int) : Reassembler :=
  let r := r.removeWhere fun message => decide (message.expiresAt ≤ now)
  { r with completed := r.completed.filter fun _ done => !decide (done.expiresAt ≤ now) }

def clearDiscussion (senderId discussionId : JsString) : Reassembler :=
  r.removeWhere fun message =>
    message.senderId == senderId && message.discussionId == some discussionId

def clearPartials : Reassembler := { r with partials := ∅, storedBytes := 0 }

def dispose : Reassembler :=
  if r.disposed then r
  else { r.clearPartials with disposed := true, completed := ∅ }

end

end Reassembler

/-! ## Frames -/

/-- The fields of a frame that passed `validFrame`. -/
structure Frame where
  protocolVersion : Nat
  messageId : JsString
  sha256 : JsString
  chunkIndex : Nat
  chunkCount : Nat
  data : JsString
  discussionId : Option JsString

def requiredKeys : List JsString :=
  [js "msg_type", js "protocolVersion", js "messageId", js "sha256", js "chunkIndex",
    js "chunkCount", js "data"]

def allowedKeys : List JsString := requiredKeys ++ [js "discussionId"]

/-- `value.discussionId === undefined || boundedId(value.discussionId)`, with
the id as the answer. -/
def frameDiscussionId? (value : Json) : Option (Option JsString) :=
  match value.field? (js "discussionId") with
  | none => some none
  | some (.str id) => if boundedId id then some (some id) else none
  | some _ => none

/-- The checks of `#validFrame`; the answer carries the fields with the types
the checks establish. -/
def validFrame (limits : Limits) (senderId : JsString) (value : Json) (frameBytes : Nat) :
    Option Frame := do
  guard (boundedId senderId)
  guard (requiredKeys.all value.hasOwn)
  guard (value.keys.all fun key => allowedKeys.contains key)
  let protocolVersion ← (value.field? (js "protocolVersion")).bind Json.nat?
  guard (protocolVersion = 2 ∨ protocolVersion = 3)
  let sha256 ← (value.field? (js "sha256")).bind Json.text?
  guard (isHexOfLength 64 sha256)
  let messageId ← (value.field? (js "messageId")).bind Json.text?
  guard (messageId = wireMessageId sha256)
  let chunkIndex ← (value.field? (js "chunkIndex")).bind Json.nat?
  let chunkCount ← (value.field? (js "chunkCount")).bind Json.nat?
  guard (1 ≤ chunkCount ∧ chunkCount ≤ limits.maxChunks)
  guard (chunkIndex < chunkCount)
  let data ← (value.field? (js "data")).bind Json.text?
  let discussionId ← frameDiscussionId? value
  guard (1 ≤ frameBytes ∧ frameBytes ≤ WIRE_BYTE_LIMIT)
  return ⟨protocolVersion, messageId, sha256, chunkIndex, chunkCount, data, discussionId⟩

/-- `JSON.stringify([senderId, messageId])`. -/
def messageKey (senderId messageId : JsString) : JsString :=
  stringify (.arr [.str senderId, .str messageId])

/-! ## Accepting -/

section Accept

variable (digest : List UInt8 → JsString) (limits : Limits)

/-- The partial message a frame belongs to: a new one if there is room, the
stored one if it describes the same message. -/
def openPartial (now : Int) (r : Reassembler) (senderId key : JsString) (frame : Frame)
    (raw : List UInt8) : Option PartialMessage × Reassembler :=
  match r.partials.get? key with
  | none =>
    if r.partials.size ≥ limits.maxInflightMessages
        ∨ r.storedBytes + raw.length > limits.maxInflightBytes then
      (none, r)
    else
      let message : PartialMessage :=
        { protocolVersion := frame.protocolVersion
          senderId := senderId
          sha256 := frame.sha256
          chunkCount := frame.chunkCount
          discussionId := frame.discussionId
          expiresAt := now + limits.ttlMs
          chunks := ∅
          receivedBytes := 0 }
      (some message, r.putMessage key message 0)
  | some message =>
    if message.sha256 ≠ frame.sha256
        ∨ message.protocolVersion ≠ frame.protocolVersion
        ∨ message.chunkCount ≠ frame.chunkCount
        ∨ message.discussionId ≠ frame.discussionId then
      (none, r.remove key)
    else
      (some message, r)

/-- `Buffer.concat(ordered, total)`: cut or zero-filled to the given length. -/
def concatTo (ordered : List (List UInt8)) (total : Nat) : List UInt8 :=
  ordered.flatten.take total ++ List.replicate (total - ordered.flatten.length) 0

section

variable (now : Int) (r : Reassembler) (key : JsString) (message : PartialMessage)

/-- All chunks are there: check the whole message and complete it. -/
def finishMessage :
    DiscussionWireResult × Reassembler :=
  match (List.range message.chunkCount).mapM message.chunks.get? with
  | none => (.incomplete, r)
  | some ordered =>
    let whole := concatTo ordered message.receivedBytes
    let r := r.remove key
    if whole.length > limits.maxMessageBytes ∨ digest whole ≠ message.sha256 then
      (.invalid, r)
    else
      -- A lossy decoding prints back to the same bytes exactly when the
      -- strict one succeeds.
      match decodeUtf8 whole with
      | none => (.invalid, r)
      | some serialized =>
        match parse serialized with
        | none => (.invalid, r)
        | some payload =>
          if !payload.isObject ∨ r.completed.size ≥ limits.maxCompleted then
            (.invalid, r)
          else if (declaredVersion payload).nat? ≠ some message.protocolVersion then
            (.invalid, r)
          else
            let done : CompletedMessage := ⟨now + limits.ttlMs, message.protocolVersion⟩
            (.complete payload serialized,
              { r with completed := r.completed.set key done })

/-- Store one chunk of an open message. -/
def storeChunk (index : Nat) (raw : List UInt8) : DiscussionWireResult × Reassembler :=
  match message.chunks.get? index with
  | some previous =>
    if previous = raw then (.incomplete, r) else (.invalid, r.remove key)
  | none =>
    if message.receivedBytes + raw.length > limits.maxMessageBytes
        ∨ r.storedBytes + raw.length > limits.maxInflightBytes then
      (.invalid, r.remove key)
    else
      let message := message.addChunk index raw (now + limits.ttlMs)
      let r := r.putMessage key message raw.length
      if message.chunks.size < message.chunkCount then (.incomplete, r)
      else finishMessage digest limits now r key message

end

def acceptFrame (now : Int) (r : Reassembler) (senderId : JsString) (value : Json)
    (frameBytes : Nat) : DiscussionWireResult × Reassembler :=
  let r := r.cleanup now
  match validFrame limits senderId value frameBytes with
  | none => (.invalid, r)
  | some frame =>
    match Base64.canonicalDecode frame.data with
    | none => (.invalid, r)
    | some raw =>
      if raw.length < 1 ∨ raw.length > RAW_CHUNK_BYTES then (.invalid, r)
      else
        let key := messageKey senderId frame.messageId
        match r.completed.get? key with
        | some done =>
          (if done.protocolVersion = frame.protocolVersion then .replay else .invalid, r)
        | none =>
          match openPartial limits now r senderId key frame raw with
          | (none, r) => (.invalid, r)
          | (some message, r) =>
            storeChunk digest limits now r key message frame.chunkIndex raw

/-- `record(value) && value.msg_type === 'discussion_wire_chunk'`. -/
def isWireFrame (value : Json) : Bool :=
  value.isObject && (value.field? (js "msg_type")).bind Json.text? == some (js "discussion_wire_chunk")

def accept (now : Int) (r : Reassembler) (senderId : JsString) (value : Json) :
    DiscussionWireResult × Reassembler :=
  if !isWireFrame value then (.passthrough value, r)
  else if r.disposed then (.invalid, r)
  else
    let serialized := stringify value
    match parse serialized with
    | none => (.invalid, r)
    | some snapshot =>
      if !snapshot.isObject then (.invalid, r)
      else acceptFrame digest limits now r senderId snapshot (byteLength serialized)

def acceptSerialized (now : Int) (r : Reassembler) (senderId serializedFrame : JsString) :
    DiscussionWireResult × Reassembler :=
  if byteLength serializedFrame > WIRE_BYTE_LIMIT then (.invalid, r)
  else
    match parse serializedFrame with
    | none => (.invalid, r)
    | some value =>
      if !isWireFrame value then (.passthrough value, r)
      else if r.disposed then (.invalid, r)
      else acceptFrame digest limits now r senderId value (byteLength serializedFrame)

end Accept

end ClawMessenger.Ports.DiscussionWire
