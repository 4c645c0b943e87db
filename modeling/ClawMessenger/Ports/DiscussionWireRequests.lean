import ClawMessenger.Ports.DiscussionWireDelivery

/-!
# What one request does to a reassembler

A reassembler is asked to accept frames, to clear a discussion or all partial
messages, and to be disposed of.  `acceptFrame` is cut here into reading the
frame (`readFrame`), which looks at nothing stored, and storing its chunk
(`acceptChunk`).  `acceptChunk_effect` says once what storing a chunk can do:
nothing, dropping the message, storing the chunk, or storing it and finishing
the message.  Everything said about whole runs rests on these four cases.
-/

namespace ClawMessenger.Ports.DiscussionWire

open Verified Verified.JsString
open Verified.Json (parse stringify)

/-! ## Requests -/

/-- A call of one of the public methods. -/
inductive Request where
  | accept (senderId : JsString) (value : Json)
  | acceptSerialized (senderId serializedFrame : JsString)
  | clearDiscussion (senderId discussionId : JsString)
  | clearPartials
  | dispose

/-- A request and what the clock shows when it is made. -/
structure Timed where
  now : Int
  request : Request

/-- The answer, for the two methods that give one, and the next state. -/
def serve (digest : List UInt8 → JsString) (limits : Limits) (r : Reassembler) (timed : Timed) :
    Option DiscussionWireResult × Reassembler :=
  match timed.request with
  | .accept senderId value =>
    let (result, r) := accept digest limits timed.now r senderId value
    (some result, r)
  | .acceptSerialized senderId serializedFrame =>
    let (result, r) := acceptSerialized digest limits timed.now r senderId serializedFrame
    (some result, r)
  | .clearDiscussion senderId discussionId => (none, r.clearDiscussion senderId discussionId)
  | .clearPartials => (none, r.clearPartials)
  | .dispose => (none, r.dispose)

/-- What `acceptFrame` is called with. -/
structure Arriving where
  senderId : JsString
  value : Json
  frameBytes : Nat

/-- The frame a request brings to `acceptFrame` of a live reassembler. -/
def Request.arriving? : Request → Option Arriving
  | .accept senderId value =>
    if isWireFrame value then
      ((parse (stringify value)).filter Json.isObject).map fun snapshot =>
        ⟨senderId, snapshot, byteLength (stringify value)⟩
    else none
  | .acceptSerialized senderId serializedFrame =>
    if byteLength serializedFrame > WIRE_BYTE_LIMIT then none
    else
      ((parse serializedFrame).filter isWireFrame).map fun value =>
        ⟨senderId, value, byteLength serializedFrame⟩
  | .clearDiscussion .. => none
  | .clearPartials => none
  | .dispose => none

/-- The request is one of the two accepting methods. -/
def Request.accepts : Request → Bool
  | .accept .. => true
  | .acceptSerialized .. => true
  | _ => false

def Request.senderId? : Request → Option JsString
  | .accept senderId _ => some senderId
  | .acceptSerialized senderId _ => some senderId
  | .clearDiscussion senderId _ => some senderId
  | .clearPartials => none
  | .dispose => none

/-- The answer to an accepting request that does not reach `acceptFrame`. -/
def Request.outright : Request → DiscussionWireResult
  | .accept _ value => if isWireFrame value then .invalid else .passthrough value
  | .acceptSerialized _ serializedFrame =>
    if byteLength serializedFrame > WIRE_BYTE_LIMIT then .invalid
    else
      match parse serializedFrame with
      | none => .invalid
      | some value => if isWireFrame value then .invalid else .passthrough value
  | _ => .invalid

section Serve

variable {digest : List UInt8 → JsString} {limits : Limits}

variable (digest limits) in
theorem serve_of_arriving {r : Reassembler} (now : Int) {request : Request} {arriving : Arriving}
    (hlive : r.disposed = false) (h : request.arriving? = some arriving) :
    serve digest limits r ⟨now, request⟩ =
      (some (acceptFrame digest limits now r arriving.senderId arriving.value
          arriving.frameBytes).1,
        (acceptFrame digest limits now r arriving.senderId arriving.value
          arriving.frameBytes).2) := by
  cases request with
  | accept senderId value =>
    by_cases hwire : isWireFrame value = true
    · simp only [Request.arriving?, if_pos hwire, Option.map_eq_some_iff,
        Option.filter_eq_some_iff] at h
      obtain ⟨snapshot, ⟨hparse, hobject⟩, rfl⟩ := h
      simp [serve, accept, hwire, hlive, hparse, hobject]
    · simp [Request.arriving?, hwire] at h
  | acceptSerialized senderId serializedFrame =>
    by_cases hlong : byteLength serializedFrame > WIRE_BYTE_LIMIT
    · simp [Request.arriving?, hlong] at h
    · simp only [Request.arriving?, if_neg hlong, Option.map_eq_some_iff,
        Option.filter_eq_some_iff] at h
      obtain ⟨value, ⟨hparse, hwire⟩, rfl⟩ := h
      simp [serve, acceptSerialized, hlong, hparse, hwire, hlive]
  | clearDiscussion | clearPartials | dispose => cases h

theorem serve_outright {r : Reassembler} {timed : Timed} (haccepts : timed.request.accepts = true)
    (h : r.disposed = true ∨ timed.request.arriving? = none) :
    serve digest limits r timed = (some timed.request.outright, r) := by
  obtain ⟨now, request⟩ := timed
  cases request with
  | accept senderId value =>
    by_cases hwire : isWireFrame value = true
    · by_cases hdisposed : r.disposed = true
      · simp [serve, accept, Request.outright, hwire, hdisposed]
      · have hnone := h.resolve_left hdisposed
        simp only [Request.arriving?, if_pos hwire, Option.map_eq_none_iff] at hnone
        simp only [serve, accept, Request.outright, hwire, hdisposed]
        cases hparse : parse (stringify value) with
        | none => simp
        | some snapshot =>
          rw [hparse] at hnone
          by_cases hobject : snapshot.isObject = true
          · simp [Option.filter, hobject] at hnone
          · simp [hobject]
    · simp [serve, accept, Request.outright, hwire]
  | acceptSerialized senderId serializedFrame =>
    by_cases hlong : byteLength serializedFrame > WIRE_BYTE_LIMIT
    · simp [serve, acceptSerialized, Request.outright, hlong]
    · cases hparse : parse serializedFrame with
      | none => simp [serve, acceptSerialized, Request.outright, hlong, hparse]
      | some value =>
        by_cases hwire : isWireFrame value = true
        · have hdisposed : r.disposed = true := by
            apply h.resolve_right
            simp [Request.arriving?, hlong, hparse, Option.filter, hwire]
          simp [serve, acceptSerialized, Request.outright, hlong, hparse, hwire, hdisposed]
        · simp [serve, acceptSerialized, Request.outright, hlong, hparse, hwire]
  | clearDiscussion | clearPartials | dispose => cases haccepts

/-! ## Reading a frame -/

/-- A valid frame with its chunk. -/
def readFrame (limits : Limits) (arriving : Arriving) : Option (Frame × List UInt8) :=
  (validFrame limits arriving.senderId arriving.value arriving.frameBytes).bind fun frame =>
    (Base64.canonicalDecode frame.data).bind fun raw =>
      if raw.length < 1 ∨ raw.length > RAW_CHUNK_BYTES then none else some (frame, raw)

def frameKey (arriving : Arriving) (frame : Frame) : JsString :=
  messageKey arriving.senderId frame.messageId

/-- The part of `acceptFrame` after the frame is read. -/
def acceptChunk (digest : List UInt8 → JsString) (limits : Limits) (now : Int) (r : Reassembler)
    (senderId key : JsString) (frame : Frame) (raw : List UInt8) :
    DiscussionWireResult × Reassembler :=
  match r.completed.get? key with
  | some done => (if done.protocolVersion = frame.protocolVersion then .replay else .invalid, r)
  | none =>
    match openPartial limits now r senderId key frame raw with
    | (none, r) => (.invalid, r)
    | (some message, r) => storeChunk digest limits now r key message frame.chunkIndex raw

theorem acceptFrame_of_readFrame {r : Reassembler} {now : Int} {arriving : Arriving}
    {frame : Frame} {raw : List UInt8} (h : readFrame limits arriving = some (frame, raw)) :
    acceptFrame digest limits now r arriving.senderId arriving.value arriving.frameBytes =
      acceptChunk digest limits now (r.cleanup now) arriving.senderId (frameKey arriving frame)
        frame raw := by
  simp only [readFrame, Option.bind_eq_some_iff] at h
  obtain ⟨frame', hframe, raw', hraw, hlen⟩ := h
  split at hlen
  · cases hlen
  · next hfit =>
      cases hlen
      simp only [acceptFrame, hframe, hraw, if_neg hfit]
      rfl

theorem acceptFrame_of_unread {r : Reassembler} {now : Int} {arriving : Arriving}
    (h : readFrame limits arriving = none) :
    acceptFrame digest limits now r arriving.senderId arriving.value arriving.frameBytes =
      (.invalid, r.cleanup now) := by
  unfold acceptFrame
  simp only [readFrame, Option.bind_eq_none_iff] at h
  cases hframe : validFrame limits arriving.senderId arriving.value arriving.frameBytes with
  | none => rfl
  | some frame =>
    cases hraw : Base64.canonicalDecode frame.data with
    | none => simp only [hraw]
    | some raw =>
      have hlen := h frame hframe raw hraw
      split at hlen
      · next hlong =>
          dsimp only
          simp only [hraw, if_pos hlong]
      · cases hlen

/-! ## Storing a chunk -/

/-- A message as `openPartial` opens it. -/
def newMessage (limits : Limits) (now : Int) (senderId : JsString) (frame : Frame) :
    PartialMessage :=
  { protocolVersion := frame.protocolVersion
    senderId := senderId
    sha256 := frame.sha256
    chunkCount := frame.chunkCount
    discussionId := frame.discussionId
    expiresAt := now + limits.ttlMs
    chunks := ∅
    receivedBytes := 0 }

/-- A stored message and a frame describe the same message. -/
def PartialMessage.fits (message : PartialMessage) (frame : Frame) : Bool :=
  decide (message.sha256 = frame.sha256 ∧ message.protocolVersion = frame.protocolVersion ∧
    message.chunkCount = frame.chunkCount ∧ message.discussionId = frame.discussionId)

/-- The message a chunk is stored in. -/
inductive Target (limits : Limits) (now : Int) (r : Reassembler) (senderId key : JsString)
    (frame : Frame) (raw : List UInt8) : PartialMessage → Prop where
  | opened : r.partials.get? key = none → r.partials.size < limits.maxInflightMessages →
      Target limits now r senderId key frame raw (newMessage limits now senderId frame)
  | stored (message : PartialMessage) : r.partials.get? key = some message →
      message.fits frame = true → Target limits now r senderId key frame raw message

/-- A new chunk that passes the capacity checks. -/
structure Admitted (limits : Limits) (now : Int) (r : Reassembler) (senderId key : JsString)
    (frame : Frame) (raw : List UInt8) (message : PartialMessage) : Prop where
  unfinished : r.completed.get? key = none
  target : Target limits now r senderId key frame raw message
  fresh : message.chunks.get? frame.chunkIndex = none
  messageBytes : message.receivedBytes + raw.length ≤ limits.maxMessageBytes
  inflightBytes : r.storedBytes + raw.length ≤ limits.maxInflightBytes

/-- The message with the chunk. -/
def extended (limits : Limits) (now : Int) (message : PartialMessage) (frame : Frame)
    (raw : List UInt8) : PartialMessage :=
  message.addChunk frame.chunkIndex raw (now + limits.ttlMs)

def DiscussionWireResult.isComplete : DiscussionWireResult → Bool
  | .complete .. => true
  | _ => false

/-- What `acceptChunk` can do. -/
inductive ChunkEffect (digest : List UInt8 → JsString) (limits : Limits) (now : Int)
    (r : Reassembler) (senderId key : JsString) (frame : Frame) (raw : List UInt8) :
    DiscussionWireResult × Reassembler → Prop where
  | kept (result : DiscussionWireResult) : result.isComplete = false →
      ChunkEffect digest limits now r senderId key frame raw (result, r)
  | dropped : ChunkEffect digest limits now r senderId key frame raw (.invalid, r.remove key)
  | added (message : PartialMessage) :
      Admitted limits now r senderId key frame raw message →
      (extended limits now message frame raw).chunks.size < message.chunkCount →
      ChunkEffect digest limits now r senderId key frame raw
        (.incomplete, r.putMessage key (extended limits now message frame raw) raw.length)
  | finished (message : PartialMessage) :
      Admitted limits now r senderId key frame raw message →
      message.chunkCount ≤ (extended limits now message frame raw).chunks.size →
      ChunkEffect digest limits now r senderId key frame raw
        (finishMessage digest limits now
          (r.putMessage key (extended limits now message frame raw) raw.length) key
          (extended limits now message frame raw))

theorem Reassembler.putMessage_putMessage (r : Reassembler) (key : JsString)
    (m m' : PartialMessage) (bytes : Nat) :
    (r.putMessage key m 0).putMessage key m' bytes = r.putMessage key m' bytes := by
  simp [Reassembler.putMessage, OrderedMap.set_set]

theorem Reassembler.remove_putMessage_new {r : Reassembler} {key : JsString} {m : PartialMessage}
    (h : r.partials.get? key = none) (hempty : m.receivedBytes = 0) :
    (r.putMessage key m 0).remove key = r.remove key := by
  simp [Reassembler.putMessage, Reassembler.remove, h, hempty, OrderedMap.erase_set,
    OrderedMap.erase_of_get?_none]

theorem Admitted.effect {r : Reassembler} {now : Int} {senderId key : JsString} {frame : Frame}
    {raw : List UInt8} {message : PartialMessage}
    (h : Admitted limits now r senderId key frame raw message) :
    ChunkEffect digest limits now r senderId key frame raw
      (if (extended limits now message frame raw).chunks.size < message.chunkCount then
        (.incomplete, r.putMessage key (extended limits now message frame raw) raw.length)
      else
        finishMessage digest limits now
          (r.putMessage key (extended limits now message frame raw) raw.length) key
          (extended limits now message frame raw)) := by
  split
  · next hlt => exact .added message h hlt
  · next hge => exact .finished message h (Nat.not_lt.mp hge)

variable (digest limits) in
theorem acceptChunk_effect (r : Reassembler) (now : Int) (senderId key : JsString) (frame : Frame)
    (raw : List UInt8) :
    ChunkEffect digest limits now r senderId key frame raw
      (acceptChunk digest limits now r senderId key frame raw) := by
  unfold acceptChunk
  cases hcompleted : r.completed.get? key with
  | some done =>
    dsimp only
    apply ChunkEffect.kept
    split <;> rfl
  | none =>
    dsimp only
    unfold openPartial
    cases hget : r.partials.get? key with
    | none =>
      dsimp only
      by_cases hroom : r.partials.size ≥ limits.maxInflightMessages ∨
          r.storedBytes + raw.length > limits.maxInflightBytes
      · rw [if_pos hroom]
        exact .kept .invalid rfl
      · rw [if_neg hroom]
        show ChunkEffect digest limits now r senderId key frame raw
          (storeChunk digest limits now
            (r.putMessage key (newMessage limits now senderId frame) 0) key
            (newMessage limits now senderId frame) frame.chunkIndex raw)
        have hfresh : (newMessage limits now senderId frame).chunks.get? frame.chunkIndex =
            none := rfl
        have htarget : Target limits now r senderId key frame raw
            (newMessage limits now senderId frame) := .opened hget (by omega)
        rw [storeChunk, hfresh]
        dsimp only
        by_cases hover : (newMessage limits now senderId frame).receivedBytes + raw.length >
              limits.maxMessageBytes ∨
            (r.putMessage key (newMessage limits now senderId frame) 0).storedBytes +
              raw.length > limits.maxInflightBytes
        · rw [if_pos hover, Reassembler.remove_putMessage_new hget rfl]
          exact .dropped
        · rw [if_neg hover, Reassembler.putMessage_putMessage]
          have hadmitted : Admitted limits now r senderId key frame raw
              (newMessage limits now senderId frame) :=
            ⟨hcompleted, htarget, hfresh, by omega, by omega⟩
          exact hadmitted.effect
    | some message =>
      dsimp only
      by_cases hconflict : message.sha256 ≠ frame.sha256 ∨
          message.protocolVersion ≠ frame.protocolVersion ∨
          message.chunkCount ≠ frame.chunkCount ∨ message.discussionId ≠ frame.discussionId
      · rw [if_pos hconflict]
        exact .dropped
      · rw [if_neg hconflict]
        have hfits : message.fits frame = true := by
          simp only [PartialMessage.fits, decide_eq_true_eq]
          tauto
        dsimp only
        unfold storeChunk
        cases hprevious : message.chunks.get? frame.chunkIndex with
        | some previous =>
          dsimp only
          split
          · exact .kept .incomplete rfl
          · exact .dropped
        | none =>
          dsimp only
          by_cases hover : message.receivedBytes + raw.length > limits.maxMessageBytes ∨
              r.storedBytes + raw.length > limits.maxInflightBytes
          · rw [if_pos hover]
            exact .dropped
          · rw [if_neg hover]
            have hadmitted : Admitted limits now r senderId key frame raw message :=
              ⟨hcompleted, .stored message hget hfits, hprevious, by omega, by omega⟩
            exact hadmitted.effect

/-! ## Finishing a message -/

/-- The state once a message is completed. -/
def Reassembler.completeMessage (r : Reassembler) (key : JsString) (done : CompletedMessage) :
    Reassembler :=
  { r.remove key with completed := r.completed.set key done }

/-- What `finishMessage` can do when every chunk is there. -/
inductive FinishEffect (digest : List UInt8 → JsString) (limits : Limits) (now : Int)
    (r : Reassembler) (key : JsString) (message : PartialMessage)
    (ordered : List (List UInt8)) : DiscussionWireResult × Reassembler → Prop where
  | rejected : FinishEffect digest limits now r key message ordered (.invalid, r.remove key)
  | completed (payload : Json) (serialized : JsString) :
      utf8 serialized = concatTo ordered message.receivedBytes →
      digest (utf8 serialized) = message.sha256 →
      parse serialized = some payload →
      r.completed.size < limits.maxCompleted →
      FinishEffect digest limits now r key message ordered
        (.complete payload serialized,
          r.completeMessage key ⟨now + limits.ttlMs, message.protocolVersion⟩)

variable (digest limits) in
theorem finishMessage_effect (r : Reassembler) (now : Int) (key : JsString)
    {message : PartialMessage} {ordered : List (List UInt8)}
    (hordered : (List.range message.chunkCount).mapM message.chunks.get? = some ordered) :
    FinishEffect digest limits now r key message ordered
      (finishMessage digest limits now r key message) := by
  rw [finishMessage, hordered]
  dsimp only
  by_cases hwhole : (concatTo ordered message.receivedBytes).length > limits.maxMessageBytes ∨
      digest (concatTo ordered message.receivedBytes) ≠ message.sha256
  · rw [if_pos hwhole]
    exact .rejected
  · rw [if_neg hwhole]
    cases hdecode : decodeUtf8 (concatTo ordered message.receivedBytes) with
    | none => exact .rejected
    | some serialized =>
      have hutf8 := utf8_of_decodeUtf8 hdecode
      have hdigest : digest (utf8 serialized) = message.sha256 := by
        rw [hutf8]
        tauto
      dsimp only
      cases hparse : parse serialized with
      | none => exact .rejected
      | some payload =>
        dsimp only
        by_cases hfull : (!payload.isObject) = true ∨
            (r.remove key).completed.size ≥ limits.maxCompleted
        · rw [if_pos hfull]
          exact .rejected
        · have hroom : r.completed.size < limits.maxCompleted := by
            rw [Reassembler.remove_completed] at hfull
            omega
          rw [if_neg hfull, Reassembler.remove_completed]
          split
          · exact .rejected
          · exact .completed payload serialized hutf8 hdigest hparse hroom

/-! ## Serving -/

theorem outright_not_complete (request : Request) : request.outright.isComplete = false := by
  cases request with
  | accept senderId value =>
    simp only [Request.outright]
    split <;> rfl
  | acceptSerialized senderId serializedFrame =>
    simp only [Request.outright]
    split
    · rfl
    · split
      · rfl
      · split <;> rfl
  | clearDiscussion | clearPartials | dispose => rfl

/-- What a request can do. -/
inductive ServeEffect (digest : List UInt8 → JsString) (limits : Limits) (r : Reassembler)
    (timed : Timed) : Option DiscussionWireResult × Reassembler → Prop where
  | outright : timed.request.accepts = true →
      ServeEffect digest limits r timed (some timed.request.outright, r)
  | unread (arriving : Arriving) : r.disposed = false →
      timed.request.arriving? = some arriving → readFrame limits arriving = none →
      ServeEffect digest limits r timed (some .invalid, r.cleanup timed.now)
  | chunk (arriving : Arriving) (frame : Frame) (raw : List UInt8)
      (outcome : DiscussionWireResult × Reassembler) : r.disposed = false →
      timed.request.arriving? = some arriving →
      readFrame limits arriving = some (frame, raw) →
      ChunkEffect digest limits timed.now (r.cleanup timed.now) arriving.senderId
        (frameKey arriving frame) frame raw outcome →
      ServeEffect digest limits r timed (some outcome.1, outcome.2)
  | clearedDiscussion (senderId discussionId : JsString) :
      timed.request = .clearDiscussion senderId discussionId →
      ServeEffect digest limits r timed (none, r.clearDiscussion senderId discussionId)
  | clearedPartials : timed.request = .clearPartials →
      ServeEffect digest limits r timed (none, r.clearPartials)
  | disposed : timed.request = .dispose → ServeEffect digest limits r timed (none, r.dispose)

variable (digest limits) in
theorem serve_effect (r : Reassembler) (timed : Timed) :
    ServeEffect digest limits r timed (serve digest limits r timed) := by
  by_cases haccepts : timed.request.accepts = true
  · by_cases hreach : r.disposed = true ∨ timed.request.arriving? = none
    · rw [serve_outright haccepts hreach]
      exact .outright haccepts
    · rw [not_or, Bool.not_eq_true] at hreach
      obtain ⟨arriving, harriving⟩ := Option.ne_none_iff_exists'.mp hreach.2
      have hserve := serve_of_arriving digest limits timed.now
        hreach.1 harriving
      rw [show serve digest limits r timed = serve digest limits r ⟨timed.now, timed.request⟩
        from rfl, hserve]
      cases hread : readFrame limits arriving with
      | none =>
        rw [acceptFrame_of_unread hread]
        exact .unread arriving hreach.1 harriving hread
      | some read =>
        rw [acceptFrame_of_readFrame hread]
        exact .chunk arriving read.1 read.2 _ hreach.1 harriving hread
          (acceptChunk_effect ..)
  · obtain ⟨now, request⟩ := timed
    cases request with
    | accept | acceptSerialized => exact absurd rfl haccepts
    | clearDiscussion senderId discussionId => exact .clearedDiscussion senderId discussionId rfl
    | clearPartials => exact .clearedPartials rfl
    | dispose => exact .disposed rfl

end Serve

end ClawMessenger.Ports.DiscussionWire
