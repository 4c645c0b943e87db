import ClawMessenger.Ports.DiscussionWireIntegrity

/-!
# Senders do not disturb each other

As long as no capacity runs out, a reassembler is a family of independent
machines, one for each (sender, message): `MessageView` is the state of one of
them, `MessageView.accept` its step.  `acceptChunk_view` says that a frame
moves its own view by that step and `view_chunkEffect_ne` that it leaves all
others alone.  What other senders do only makes the clock pass, and expired
entries are not seen (`Same`), so two runs in which a sender asks the same give
it the same answers.
-/

namespace ClawMessenger.Ports.DiscussionWire

open Verified Verified.Machine Verified.JsString List
open Verified.Json (parse stringify)
open Reassembler (cleanup_disposed clearDiscussion dispose putMessage removeWhere_disposed
  remove_completed remove_disposed remove_get?)

/-! ## One message on its own -/

/-- What a reassembler holds of one message of one sender. -/
structure MessageView where
  open? : Option PartialMessage
  done? : Option CompletedMessage

namespace MessageView

/-- What is left at a clock reading. -/
def expire (view : MessageView) (now : Int) : MessageView :=
  ⟨view.open?.filter fun message => !decide (message.expiresAt ≤ now),
    view.done?.filter fun done => !decide (done.expiresAt ≤ now)⟩

theorem expire_expire (view : MessageView) {now later : Int} (h : now ≤ later) :
    (view.expire now).expire later = view.expire later := by
  have hfilter : ∀ {α : Type} (o : Option α) (expiresAt : α → Int),
      (o.filter fun a => !decide (expiresAt a ≤ now)).filter
          (fun a => !decide (expiresAt a ≤ later)) =
        o.filter fun a => !decide (expiresAt a ≤ later) := by
    intro α o expiresAt
    cases o with
    | none => rfl
    | some a =>
      by_cases hnow : expiresAt a ≤ now
      · have hlater : expiresAt a ≤ later := Int.le_trans hnow h
        simp [Option.filter, hnow, hlater]
      · simp [Option.filter, hnow]
  simp only [expire, hfilter]

section Accept

variable (digest : List UInt8 → JsString) (limits : Limits)

/-- The payload of a message with all its chunks, if it is what it says. -/
def judge (message : PartialMessage) (ordered : List (List UInt8)) : Option (Json × JsString) :=
  let whole := concatTo ordered message.receivedBytes
  if whole.length > limits.maxMessageBytes ∨ digest whole ≠ message.sha256 then none
  else
    (decodeUtf8 whole).bind fun serialized =>
      (parse serialized).bind fun payload =>
        if payload.isObject ∧ (declaredVersion payload).nat? = some message.protocolVersion then
          some (payload, serialized)
        else none

/-- All chunks are there. -/
def finish (now : Int) (message : PartialMessage) : DiscussionWireResult × MessageView :=
  match (List.range message.chunkCount).mapM message.chunks.get? with
  | none => (.incomplete, ⟨some message, none⟩)
  | some ordered =>
    match judge digest limits message ordered with
    | none => (.invalid, ⟨none, none⟩)
    | some (payload, serialized) =>
      (.complete payload serialized,
        ⟨none, some ⟨now + limits.ttlMs, message.protocolVersion⟩⟩)

/-- Store one chunk. -/
def store (now : Int) (frame : Frame) (raw : List UInt8) (message : PartialMessage) :
    DiscussionWireResult × MessageView :=
  match message.chunks.get? frame.chunkIndex with
  | some previous =>
    if previous = raw then (.incomplete, ⟨some message, none⟩) else (.invalid, ⟨none, none⟩)
  | none =>
    if message.receivedBytes + raw.length > limits.maxMessageBytes then (.invalid, ⟨none, none⟩)
    else if (extended limits now message frame raw).chunks.size < message.chunkCount then
      (.incomplete, ⟨some (extended limits now message frame raw), none⟩)
    else finish digest limits now (extended limits now message frame raw)

/-- The step of one message by one frame. -/
def accept (now : Int) (senderId : JsString) (frame : Frame) (raw : List UInt8)
    (view : MessageView) : DiscussionWireResult × MessageView :=
  match view.done? with
  | some done => (if done.protocolVersion = frame.protocolVersion then .replay else .invalid, view)
  | none =>
    match view.open? with
    | none => store digest limits now frame raw (newMessage limits now senderId frame)
    | some message =>
      if message.fits frame then store digest limits now frame raw message
      else (.invalid, ⟨none, none⟩)

end Accept

end MessageView

/-- The view of a key. -/
def Reassembler.view (r : Reassembler) (key : JsString) : MessageView :=
  ⟨r.partials.get? key, r.completed.get? key⟩

/-- A frame meets a full capacity: of messages or bytes in flight, or of
completed messages. -/
def limitReached (limits : Limits) (r : Reassembler) (key : JsString) (frame : Frame)
    (raw : List UInt8) : Bool :=
  (r.completed.get? key).isNone &&
    (decide (r.completed.size ≥ limits.maxCompleted) ||
      match r.partials.get? key with
      | none =>
        decide (r.partials.size ≥ limits.maxInflightMessages) ||
          decide (r.storedBytes + raw.length > limits.maxInflightBytes)
      | some message =>
        message.fits frame && (message.chunks.get? frame.chunkIndex).isNone &&
          decide (r.storedBytes + raw.length > limits.maxInflightBytes))

section Views

variable {digest : List UInt8 → JsString} {limits : Limits}

theorem view_cleanup (r : Reassembler) (now : Int) (key : JsString) :
    (r.cleanup now).view key = (r.view key).expire now := by
  rw [Reassembler.view, Reassembler.cleanup_get?_partials, Reassembler.cleanup_get?_completed]
  rfl

section

variable (r : Reassembler) (key k : JsString)
include r key k

theorem view_remove :
    (r.remove key).view k = if k = key then ⟨none, r.completed.get? k⟩ else r.view k := by
  rw [Reassembler.view, remove_get?, remove_completed]
  split <;> rfl

theorem view_putMessage (message : PartialMessage) (bytes : Nat) :
    (r.putMessage key message bytes).view k =
      if k = key then ⟨some message, r.completed.get? k⟩ else r.view k := by
  rw [Reassembler.view, putMessage]
  rw [OrderedMap.get?_set]
  split <;> rfl

theorem view_completeMessage (done : CompletedMessage) :
    (r.completeMessage key done).view k = if k = key then ⟨none, some done⟩ else r.view k := by
  rw [Reassembler.view, Reassembler.completeMessage]
  rw [remove_get?, OrderedMap.get?_set]
  split <;> rfl

end

variable {frame : Frame} {key senderId : JsString} {now : Int} {r r' : Reassembler}
  {raw : List UInt8} {timed : Timed}

variable {outcome : DiscussionWireResult × Reassembler}

/-- A frame leaves the other views alone. -/
theorem view_chunkEffect_ne (h : Accounted limits r) {k : JsString}
    (hindex : frame.chunkIndex < frame.chunkCount) (hne : k ≠ key)
    (heffect : ChunkEffect digest limits now r senderId key frame raw outcome) :
    outcome.2.view k = r.view k := by
  cases heffect with
  | kept => rfl
  | dropped => rw [view_remove, if_neg hne]
  | added => rw [view_putMessage, if_neg hne]
  | finished message ha hfull =>
    rcases ha.finish digest h hindex hfull with hout | hout
    · rw [hout, view_remove, if_neg hne]
    · obtain ⟨_, _, _, _, _, _, hout⟩ := hout
      rw [hout, view_completeMessage, if_neg hne]

/-- An answer and a view, as a pair of a reassembler and as a pair of a view. -/
def Answers (outcome : DiscussionWireResult × Reassembler) (key : JsString)
    (local_ : DiscussionWireResult × MessageView) : Prop :=
  outcome.1 = local_.1 ∧ outcome.2.view key = local_.2

variable {message : PartialMessage}

section

variable (hview : r.view key = ⟨some message, none⟩)
  (hroom : r.completed.size < limits.maxCompleted)
include hview hroom

theorem finishMessage_view :
    Answers (finishMessage digest limits now r key message) key
      (MessageView.finish digest limits now message) := by
  have hdone : r.completed.get? key = none := congrArg MessageView.done? hview
  have hgone : (r.remove key).view key = ⟨none, none⟩ := by
    rw [view_remove, if_pos rfl, hdone]
  rw [finishMessage, MessageView.finish]
  cases hordered : (range message.chunkCount).mapM message.chunks.get? with
  | none => exact ⟨rfl, hview⟩
  | some ordered =>
    dsimp only
    rw [MessageView.judge]
    by_cases hwhole : (concatTo ordered message.receivedBytes).length > limits.maxMessageBytes ∨
        digest (concatTo ordered message.receivedBytes) ≠ message.sha256
    · rw [if_pos hwhole, if_pos hwhole]
      exact ⟨rfl, hgone⟩
    · rw [if_neg hwhole, if_neg hwhole]
      cases hdecode : decodeUtf8 (concatTo ordered message.receivedBytes) with
      | none => exact ⟨rfl, hgone⟩
      | some serialized =>
        dsimp only [Option.bind_some]
        cases hparse : parse serialized with
        | none => exact ⟨rfl, hgone⟩
        | some payload =>
          dsimp only [Option.bind_some]
          by_cases hobject : payload.isObject = true
          · have hfull : ¬((!payload.isObject) = true ∨
                (r.remove key).completed.size ≥ limits.maxCompleted) := by
              rw [remove_completed, hobject]
              simp only [Bool.not_true, Bool.false_eq_true, false_or]
              omega
            rw [if_neg hfull]
            by_cases hversion : (declaredVersion payload).nat? = some message.protocolVersion
            · rw [if_neg (not_not.mpr hversion), if_pos ⟨hobject, hversion⟩]
              refine ⟨rfl, ?_⟩
              rw [remove_completed]
              show (r.completeMessage key _).view key = _
              rw [view_completeMessage, if_pos rfl]
            · rw [if_pos hversion, if_neg fun h => hversion h.2]
              exact ⟨rfl, hgone⟩
          · have hfull : (!payload.isObject) = true ∨
                (r.remove key).completed.size ≥ limits.maxCompleted := by
              left
              rw [Bool.not_eq_true] at hobject
              rw [hobject]
              rfl
            rw [if_pos hfull, if_neg fun h => hobject h.1]
            exact ⟨rfl, hgone⟩

theorem storeChunk_view
    (hbytes : message.chunks.get? frame.chunkIndex = none → r.storedBytes + raw.length ≤ limits.maxInflightBytes) :
    Answers (storeChunk digest limits now r key message frame.chunkIndex raw) key
      (MessageView.store digest limits now frame raw message) := by
  have hdone : r.completed.get? key = none := congrArg MessageView.done? hview
  have hgone : (r.remove key).view key = ⟨none, none⟩ := by
    rw [view_remove, if_pos rfl, hdone]
  rw [storeChunk, MessageView.store]
  cases hprevious : message.chunks.get? frame.chunkIndex with
  | some previous =>
    dsimp only
    by_cases hsame : previous = raw
    · rw [if_pos hsame, if_pos hsame]
      exact ⟨rfl, hview⟩
    · rw [if_neg hsame, if_neg hsame]
      exact ⟨rfl, hgone⟩
  | none =>
    have hfits := hbytes hprevious
    by_cases hlong : message.receivedBytes + raw.length > limits.maxMessageBytes
    · rw [if_pos (.inl hlong), if_pos hlong]
      exact ⟨rfl, hgone⟩
    · have hboth : ¬(message.receivedBytes + raw.length > limits.maxMessageBytes ∨
          r.storedBytes + raw.length > limits.maxInflightBytes) := by omega
      rw [if_neg hboth, if_neg hlong]
      have hput : (r.putMessage key (extended limits now message frame raw) raw.length).view key =
          ⟨some (extended limits now message frame raw), none⟩ := by
        rw [view_putMessage, if_pos rfl, hdone]
      show Answers (if (extended limits now message frame raw).chunks.size < message.chunkCount
        then _ else _) key _
      by_cases hmore : (extended limits now message frame raw).chunks.size < message.chunkCount
      · rw [if_pos hmore, if_pos hmore]
        exact ⟨rfl, hput⟩
      · rw [if_neg hmore, if_neg hmore]
        exact finishMessage_view hput hroom

end

variable (digest) in
/-- Away from the capacities a frame moves its own view by the view's step. -/
theorem acceptChunk_view (now : Int) (senderId : JsString)
    (hroom : limitReached limits r key frame raw = false) :
    Answers (acceptChunk digest limits now r senderId key frame raw) key
      (MessageView.accept digest limits now senderId frame raw (r.view key)) := by
  rw [acceptChunk, MessageView.accept]
  cases hcompleted : r.completed.get? key with
  | some done =>
    rw [Reassembler.view, hcompleted]
    refine ⟨rfl, ?_⟩
    rw [Reassembler.view, hcompleted]
  | none =>
    rw [limitReached, hcompleted] at hroom
    simp only [Option.isNone_none, Bool.true_and, Bool.or_eq_false_iff,
      decide_eq_false_iff_not] at hroom
    obtain ⟨hdone, hinflight⟩ := hroom
    rw [Reassembler.view, hcompleted, openPartial]
    cases hget : r.partials.get? key with
    | none =>
      rw [hget] at hinflight
      simp only [Bool.or_eq_false_iff, decide_eq_false_iff_not] at hinflight
      have hopen : ¬(r.partials.size ≥ limits.maxInflightMessages ∨
          r.storedBytes + raw.length > limits.maxInflightBytes) := by tauto
      rw [if_neg hopen]
      apply storeChunk_view
      · show (r.putMessage key (newMessage limits now senderId frame) 0).view key = _
        rw [view_putMessage, if_pos rfl, hcompleted]
        rfl
      · show r.completed.size < limits.maxCompleted
        omega
      · intro _
        show r.storedBytes + 0 + raw.length ≤ limits.maxInflightBytes
        omega
    | some message =>
      rw [hget] at hinflight
      dsimp only at hinflight ⊢
      by_cases hfits : message.fits frame = true
      · have hagree : ¬(message.sha256 ≠ frame.sha256 ∨
            message.protocolVersion ≠ frame.protocolVersion ∨
            message.chunkCount ≠ frame.chunkCount ∨
            message.discussionId ≠ frame.discussionId) := by
          have hall := hfits
          simp only [PartialMessage.fits, decide_eq_true_eq] at hall
          tauto
        rw [if_neg hagree, if_pos hfits]
        apply storeChunk_view
        · rw [Reassembler.view, hget, hcompleted]
        · omega
        · intro hnew
          rw [hfits, hnew] at hinflight
          simp only [Option.isNone_none, Bool.true_and, decide_eq_false_iff_not] at hinflight
          omega
      · have hconflict : message.sha256 ≠ frame.sha256 ∨
            message.protocolVersion ≠ frame.protocolVersion ∨
            message.chunkCount ≠ frame.chunkCount ∨
            message.discussionId ≠ frame.discussionId := by
          simp only [PartialMessage.fits, decide_eq_true_eq] at hfits
          tauto
        rw [if_pos hconflict, if_neg hfits]
        refine ⟨rfl, ?_⟩
        rw [view_remove, if_pos rfl, hcompleted]

/-! ## What a sender sees -/

/-- The request is the sender's, or nobody's in particular. -/
def concerns (senderId : JsString) (timed : Timed) : Bool :=
  timed.request.senderId?.all fun id => id == senderId

/-- Two states hold the same of a sender's messages, apart from what has
expired. -/
structure Same (senderId : JsString) (now : Int) (r r' : Reassembler) : Prop where
  disposed : r.disposed = r'.disposed
  views : ∀ messageId, (r.view (messageKey senderId messageId)).expire now =
    (r'.view (messageKey senderId messageId)).expire now

theorem Same.refl (senderId : JsString) (now : Int) (r : Reassembler) : Same senderId now r r :=
  ⟨rfl, fun _ => rfl⟩

theorem Same.symm (h : Same senderId now r r') : Same senderId now r' r :=
  ⟨h.disposed.symm, fun messageId => (h.views messageId).symm⟩

theorem Same.trans {r₁ r₂ r₃ : Reassembler} (h : Same senderId now r₁ r₂)
    (h' : Same senderId now r₂ r₃) : Same senderId now r₁ r₃ :=
  ⟨h.disposed.trans h'.disposed, fun messageId => (h.views messageId).trans (h'.views messageId)⟩

theorem Same.mono {later : Int} (h : Same senderId now r r')
    (hle : now ≤ later) : Same senderId later r r' := by
  refine ⟨h.disposed, ?_⟩
  intro messageId
  rw [← MessageView.expire_expire _ hle, h.views messageId, MessageView.expire_expire _ hle]

variable {arriving : Arriving}

theorem arriving_senderId {request : Request} (h : request.arriving? = some arriving) :
    request.senderId? = some arriving.senderId := by
  cases request with
  | accept senderId value =>
    simp only [Request.arriving?] at h
    split at h
    · obtain ⟨_, _, rfl⟩ := Option.map_eq_some_iff.mp h
      rfl
    · cases h
  | acceptSerialized senderId serializedFrame =>
    simp only [Request.arriving?] at h
    split at h
    · cases h
    · obtain ⟨_, _, rfl⟩ := Option.map_eq_some_iff.mp h
      rfl
  | clearDiscussion | clearPartials | dispose => cases h

theorem chunkEffect_disposed (h : Accounted limits r)
    (hindex : frame.chunkIndex < frame.chunkCount)
    (heffect : ChunkEffect digest limits now r senderId key frame raw outcome) :
    outcome.2.disposed = r.disposed := by
  cases heffect with
  | kept => rfl
  | dropped => exact remove_disposed r key
  | added => rfl
  | finished message ha hfull =>
    rcases ha.finish digest h hindex hfull with hout | hout
    · rw [hout]
      exact remove_disposed r key
    · obtain ⟨_, _, _, _, _, _, hout⟩ := hout
      rw [hout]
      exact remove_disposed r key

theorem view_clearDiscussion (r : Reassembler) (senderId discussionId key : JsString) :
    (r.clearDiscussion senderId discussionId).view key =
      ⟨(r.view key).open?.filter fun message =>
          !(message.senderId == senderId && message.discussionId == some discussionId),
        (r.view key).done?⟩ := by
  rw [Reassembler.view, clearDiscussion, Reassembler.removeWhere_get?,
    Reassembler.removeWhere_completed]
  rfl

variable (digest) in
/-- The requests of others only make the clock pass. -/
theorem same_of_foreign (h : Accounted limits r)
    (howned : ∀ key message, r.partials.get? key = some message →
      ∃ messageId, key = messageKey message.senderId messageId)
    (hforeign : concerns senderId timed = false) (hnow : timed.now ≤ now) :
    Same senderId now r (serve digest limits r timed).2 := by
  have hclean : ∀ messageId, (r.view (messageKey senderId messageId)).expire now =
      ((r.cleanup timed.now).view (messageKey senderId messageId)).expire now := by
    intro messageId
    rw [view_cleanup, MessageView.expire_expire _ hnow]
  have heffect := serve_effect digest limits r timed
  generalize serve digest limits r timed = served at heffect ⊢
  cases heffect with
  | outright => exact Same.refl senderId now r
  | unread => exact ⟨(cleanup_disposed r timed.now).symm, hclean⟩
  | chunk arriving frame raw outcome hlive harrives hread hchunk =>
    have hother : arriving.senderId ≠ senderId := by
      rw [concerns, arriving_senderId harrives] at hforeign
      simpa using hforeign
    have hindex := readFrame_index hread
    refine ⟨?_, ?_⟩
    · rw [chunkEffect_disposed (h.cleanup timed.now) hindex hchunk,
        cleanup_disposed]
    · intro messageId
      have hne : messageKey senderId messageId ≠ frameKey arriving frame := by
        intro heq
        exact hother (messageKey_injective heq).1.symm
      rw [view_chunkEffect_ne (h.cleanup timed.now) hindex hne hchunk]
      exact hclean messageId
  | clearedDiscussion other discussionId hrequest =>
    have hother : other ≠ senderId := by
      rw [concerns, hrequest] at hforeign
      simpa [Request.senderId?] using hforeign
    refine ⟨(removeWhere_disposed r _).symm, ?_⟩
    intro messageId
    rw [view_clearDiscussion]
    have hkept : ((r.view (messageKey senderId messageId)).open?.filter fun message =>
        !(message.senderId == other && message.discussionId == some discussionId)) =
          (r.view (messageKey senderId messageId)).open? := by
      rw [Reassembler.view]
      cases hget : r.partials.get? (messageKey senderId messageId) with
      | none => rfl
      | some message =>
        obtain ⟨_, hkey⟩ := howned _ message hget
        have hsender := (messageKey_injective hkey).1
        have hbeq : (message.senderId == other) = false := by
          rw [← hsender]
          simpa using hother.symm
        simp [Option.filter, hbeq]
    rw [hkept]
  | clearedPartials hrequest | disposed hrequest => rw [concerns, hrequest] at hforeign; cases hforeign

/-- The frame a request brings to a live reassembler meets a full capacity. -/
def hindered (limits : Limits) (r : Reassembler) (timed : Timed) : Bool :=
  !r.disposed && (timed.request.arriving?.any fun arriving =>
    (readFrame limits arriving).any fun read =>
      limitReached limits (r.cleanup timed.now) (frameKey arriving read.1) read.1 read.2)

theorem limitReached_of_not_hindered (h : hindered limits r timed = false)
    (hlive : r.disposed = false) (harrives : timed.request.arriving? = some arriving)
    (hread : readFrame limits arriving = some (frame, raw)) :
    limitReached limits (r.cleanup timed.now) (frameKey arriving frame) frame raw = false := by
  simpa [hindered, hlive, harrives, hread] using h

theorem same_cleanup
    (h : Same senderId now r r') : Same senderId now (r.cleanup now) (r'.cleanup now) := by
  refine ⟨?_, ?_⟩
  · rw [cleanup_disposed, cleanup_disposed]
    exact h.disposed
  · intro messageId
    rw [view_cleanup, view_cleanup, h.views messageId]

variable (digest) in
/-- A sender's frame is answered alike where the sender's messages are the
same. -/
theorem answer_eq_of_same (h : Accounted limits r) (h' : Accounted limits r')
    (hsame : Same senderId timed.now r r') (hsender : arriving.senderId = senderId)
    (hread : readFrame limits arriving = some (frame, raw))
    (hroom : limitReached limits (r.cleanup timed.now) (frameKey arriving frame) frame raw = false)
    (hroom' : limitReached limits (r'.cleanup timed.now) (frameKey arriving frame) frame raw = false) :
    let outcome := acceptChunk digest limits timed.now (r.cleanup timed.now) arriving.senderId
      (frameKey arriving frame) frame raw
    let outcome' := acceptChunk digest limits timed.now (r'.cleanup timed.now) arriving.senderId
      (frameKey arriving frame) frame raw
    outcome.1 = outcome'.1 ∧ Same senderId timed.now outcome.2 outcome'.2 := by
  have hindex := readFrame_index hread
  have hclean := same_cleanup hsame
  have hviews : ∀ messageId, (r.cleanup timed.now).view (messageKey senderId messageId) =
      (r'.cleanup timed.now).view (messageKey senderId messageId) := by
    intro messageId
    rw [view_cleanup, view_cleanup, hsame.views messageId]
  have hkey : frameKey arriving frame = messageKey senderId frame.messageId := by
    rw [frameKey, hsender]
  have hanswer := acceptChunk_view digest timed.now arriving.senderId hroom
  have hanswer' := acceptChunk_view digest timed.now arriving.senderId hroom'
  have hview : (r.cleanup timed.now).view (frameKey arriving frame) =
      (r'.cleanup timed.now).view (frameKey arriving frame) := by
    rw [hkey]
    exact hviews frame.messageId
  rw [← hview] at hanswer'
  have heffect := acceptChunk_effect digest limits (r.cleanup timed.now)
    timed.now arriving.senderId (frameKey arriving frame) frame raw
  have heffect' := acceptChunk_effect digest limits (r'.cleanup timed.now)
    timed.now arriving.senderId (frameKey arriving frame) frame raw
  have hdisposed := chunkEffect_disposed (h.cleanup timed.now) hindex heffect
  have hdisposed' := chunkEffect_disposed (h'.cleanup timed.now) hindex heffect'
  refine ⟨hanswer.1.trans hanswer'.1.symm, ?_, ?_⟩
  · rw [hdisposed, hdisposed']
    exact hclean.disposed
  · intro messageId
    by_cases hown : messageKey senderId messageId = frameKey arriving frame
    · rw [hown, hanswer.2, hanswer'.2]
    · rw [view_chunkEffect_ne (h.cleanup timed.now) hindex hown heffect,
        view_chunkEffect_ne (h'.cleanup timed.now) hindex hown heffect', hviews messageId]

/-- Clearing part of a view and letting it expire commute. -/
theorem expire_filter (view : MessageView) (keep : PartialMessage → Bool) (now : Int) :
    (MessageView.mk (view.open?.filter keep) view.done?).expire now =
      ⟨(view.expire now).open?.filter keep, (view.expire now).done?⟩ := by
  rw [MessageView.expire, MessageView.expire]
  cases view.open? with
  | none => rfl
  | some message =>
    by_cases hkeep : keep message = true
    · by_cases hlive : message.expiresAt ≤ now
      · simp [Option.filter, hkeep, hlive]
      · simp [Option.filter, hkeep, hlive]
    · by_cases hlive : message.expiresAt ≤ now
      · simp [Option.filter, hkeep, hlive]
      · simp [Option.filter, hkeep, hlive]

variable (digest) in
/-- A request of the sender, or of nobody in particular, is answered alike. -/
theorem serve_same (h : Accounted limits r) (h' : Accounted limits r')
    (hsame : Same senderId timed.now r r') (hown : concerns senderId timed = true)
    (hroom : hindered limits r timed = false) (hroom' : hindered limits r' timed = false) :
    (serve digest limits r timed).1 = (serve digest limits r' timed).1 ∧
      Same senderId timed.now (serve digest limits r timed).2
        (serve digest limits r' timed).2 := by
  by_cases haccepts : timed.request.accepts = true
  · by_cases hreach : r.disposed = true ∨ timed.request.arriving? = none
    · have hreach' : r'.disposed = true ∨ timed.request.arriving? = none := by
        rw [← hsame.disposed]
        exact hreach
      rw [serve_outright haccepts hreach, serve_outright haccepts hreach']
      exact ⟨rfl, hsame⟩
    · rw [not_or, Bool.not_eq_true] at hreach
      obtain ⟨arriving, harriving⟩ := Option.ne_none_iff_exists'.mp hreach.2
      have hlive' : r'.disposed = false := by
        rw [← hsame.disposed]
        exact hreach.1
      have hserve := serve_of_arriving digest limits timed.now
        hreach.1 harriving
      have hserve' := serve_of_arriving digest limits timed.now
        hlive' harriving
      rw [show serve digest limits r timed = serve digest limits r ⟨timed.now, timed.request⟩
        from rfl, show serve digest limits r' timed =
        serve digest limits r' ⟨timed.now, timed.request⟩ from rfl, hserve, hserve']
      cases hread : readFrame limits arriving with
      | none =>
        rw [acceptFrame_of_unread hread, acceptFrame_of_unread hread]
        exact ⟨rfl, same_cleanup hsame⟩
      | some read =>
        have hsender : arriving.senderId = senderId := by
          rw [concerns, arriving_senderId harriving] at hown
          simpa using hown
        obtain ⟨hanswer, hafter⟩ := answer_eq_of_same digest h h' hsame hsender hread
          (limitReached_of_not_hindered hroom hreach.1 harriving hread)
          (limitReached_of_not_hindered hroom' hlive' harriving hread)
        rw [acceptFrame_of_readFrame hread, acceptFrame_of_readFrame hread]
        exact ⟨congrArg some hanswer, hafter⟩
  · obtain ⟨now, request⟩ := timed
    cases request with
    | accept | acceptSerialized => exact absurd rfl haccepts
    | clearDiscussion other discussionId =>
      refine ⟨rfl, ?_, ?_⟩
      · show (r.clearDiscussion other discussionId).disposed =
          (r'.clearDiscussion other discussionId).disposed
        rw [clearDiscussion, clearDiscussion,
          removeWhere_disposed, removeWhere_disposed]
        exact hsame.disposed
      · intro messageId
        show ((r.clearDiscussion other discussionId).view _).expire now =
          ((r'.clearDiscussion other discussionId).view _).expire now
        rw [view_clearDiscussion, view_clearDiscussion, expire_filter, expire_filter,
          hsame.views messageId]
    | clearPartials =>
      refine ⟨rfl, hsame.disposed, ?_⟩
      intro messageId
      have hdone := congrArg MessageView.done? (hsame.views messageId)
      exact congrArg (MessageView.mk none) hdone
    | dispose =>
      show none = none ∧ Same senderId now r.dispose r'.dispose
      unfold dispose
      rw [← hsame.disposed]
      split
      · exact ⟨rfl, hsame⟩
      · exact ⟨rfl, rfl, fun _ => rfl⟩

/-! ## Two runs -/

/-- The clock readings of a list of requests do not decrease. -/
def Clocked (requests : List Timed) : Prop := requests.Pairwise fun a b => a.now ≤ b.now

/-- The answers a sender gets. -/
def answersTo (senderId : JsString) (past : List Exchange) :
    List (Option DiscussionWireResult) :=
  (past.filter fun exchange => concerns senderId exchange.1).map Prod.snd

/-- A run: what was asked and answered, and the state it ends in. -/
abbrev Run := Config Reassembler Timed (Option DiscussionWireResult)

def runFrom (digest : List UInt8 → JsString) (limits : Limits) (c : Run)
    (requests : List Timed) : Run :=
  exec (serve digest limits) c requests

variable {c : Run}

theorem Traced.runFrom (h : Traced limits c) (requests : List Timed) :
    Traced limits (runFrom digest limits c requests) := by
  induction requests generalizing c with
  | nil => exact h
  | cons timed rest ih => exact ih (h.step digest timed)

theorem answersTo_advance (senderId : JsString) (c : Run) (timed : Timed) :
    answersTo senderId (advance (serve digest limits) c timed).past =
      answersTo senderId c.past ++
        if concerns senderId timed then [(serve digest limits c.state timed).1] else [] := by
  rw [answersTo, advance_past, filter_append, map_append]
  by_cases h : concerns senderId timed = true
  · simp [answersTo, h]
  · simp [answersTo, h]

variable {requests : List Timed}

/-- Requests of others give the sender no answers. -/
theorem foreign_answers (hforeign : ∀ timed ∈ requests, concerns senderId timed = false) (c : Run) :
    answersTo senderId (runFrom digest limits c requests).past = answersTo senderId c.past := by
  induction requests generalizing c with
  | nil => rfl
  | cons timed rest ih =>
    have hfirst := hforeign timed (mem_cons_self ..)
    have hrest := ih (fun t ht => hforeign t (mem_cons_of_mem _ ht))
      (advance (serve digest limits) c timed)
    refine hrest.trans ?_
    rw [answersTo_advance, hfirst]
    exact append_nil _

variable (digest) in
theorem foreign_run (hforeign : ∀ timed ∈ requests, concerns senderId timed = false)
    (hnow : ∀ timed ∈ requests, timed.now ≤ now) (h : Traced limits c) :
    Same senderId now c.state (runFrom digest limits c requests).state := by
  induction requests generalizing c with
  | nil => exact Same.refl senderId now c.state
  | cons timed rest ih =>
    have hstep := same_of_foreign digest h.accounted
      (fun key message hget => ⟨_, (h.sourced key message hget).key⟩)
      (hforeign timed (mem_cons_self ..)) (hnow timed (mem_cons_self ..))
    have hrest := ih (fun t ht => hforeign t (mem_cons_of_mem _ ht))
      (fun t ht => hnow t (mem_cons_of_mem _ ht)) (h.step digest timed)
    exact hstep.trans hrest

/-- No capacity stops a sender's requests on the way. -/
def UnhinderedFrom (digest : List UInt8 → JsString) (limits : Limits) (senderId : JsString) :
    Run → List Timed → Prop :=
  AllAllowed (serve digest limits) fun c timed =>
    concerns senderId timed = true → hindered limits c.state timed = false

instance (senderId : JsString) (c : Run) (requests : List Timed) :
    Decidable (UnhinderedFrom digest limits senderId c requests) :=
  decidableAllAllowed c requests

theorem answers_agree (own : List Timed) :
    ∀ {c c' : Run} {requests requests' : List Timed}, Traced limits c → Traced limits c' →
      requests.filter (concerns senderId) = own → requests'.filter (concerns senderId) = own →
      Clocked requests → Clocked requests' →
      UnhinderedFrom digest limits senderId c requests →
      UnhinderedFrom digest limits senderId c' requests' →
      (∀ timed ∈ own, Same senderId timed.now c.state c'.state) →
      answersTo senderId c.past = answersTo senderId c'.past →
      answersTo senderId (runFrom digest limits c requests).past =
        answersTo senderId (runFrom digest limits c' requests').past := by
  induction own with
  | nil =>
    intro c c' requests requests' _ _ hfilter hfilter' _ _ _ _ _ hpast
    have hforeign : ∀ {l : List Timed}, l.filter (concerns senderId) = [] →
        ∀ t ∈ l, concerns senderId t = false := by
      intro l hl t ht
      simpa using filter_eq_nil_iff.mp hl t ht
    rw [foreign_answers (hforeign hfilter), foreign_answers (hforeign hfilter'), hpast]
  | cons timed own ih =>
    intro c c' requests requests' h h' hfilter hfilter' hclock hclock' hroom hroom' hsame hpast
    obtain ⟨before, after, rfl, hforeign, hown, hafter⟩ := filter_eq_cons_iff.mp hfilter
    obtain ⟨before', after', rfl, hforeign', _, hafter'⟩ := filter_eq_cons_iff.mp hfilter'
    have hforeign : ∀ t ∈ before, concerns senderId t = false := fun t ht => by
      simpa using hforeign t ht
    have hforeign' : ∀ t ∈ before', concerns senderId t = false := fun t ht => by
      simpa using hforeign' t ht
    obtain ⟨_, htail, hcross⟩ := pairwise_append.mp hclock
    obtain ⟨_, htail', hcross'⟩ := pairwise_append.mp hclock'
    have hreach := foreign_run digest hforeign
      (fun t ht => hcross t ht timed (mem_cons_self ..)) h
    have hreach' := foreign_run digest hforeign'
      (fun t ht => hcross' t ht timed (mem_cons_self ..)) h'
    have hbefore :=
      hreach.symm.trans ((hsame timed (mem_cons_self ..)).trans hreach')
    obtain ⟨_, hfirst, hrest⟩ := allAllowed_append.mp hroom
    obtain ⟨_, hfirst', hrest'⟩ := allAllowed_append.mp hroom'
    obtain ⟨hanswer, hstate⟩ := serve_same digest (h.runFrom before).accounted
      (h'.runFrom before').accounted hbefore hown (hfirst hown) (hfirst' hown)
    have hsplit : ∀ (d : Run) (b a : List Timed), runFrom digest limits d (b ++ timed :: a) =
        runFrom digest limits
          (advance (serve digest limits) (runFrom digest limits d b) timed) a :=
      fun d b a => exec_append d b (timed :: a)
    rw [hsplit, hsplit]
    apply ih ((h.runFrom before).step digest timed) ((h'.runFrom before').step digest timed) hafter hafter'
      (pairwise_cons.mp htail).2 (pairwise_cons.mp htail').2 hrest hrest'
    · intro later hlater
      have hmem : later ∈ after := by
        rw [← hafter] at hlater
        exact (mem_filter.mp hlater).1
      have hle : timed.now ≤ later.now := (pairwise_cons.mp htail).1 later hmem
      exact hstate.mono hle
    · rw [answersTo_advance, answersTo_advance, foreign_answers hforeign,
        foreign_answers hforeign', hpast, if_pos hown, if_pos hown, hanswer]

theorem reach_of_clocked (hclock : Clocked requests)
    (hpast : ∀ exchange ∈ c.past, ∀ timed ∈ requests, exchange.1.now ≤ timed.now) :
    Reach (serve digest limits) clockForward c (runFrom digest limits c requests) := by
  apply reach_exec
  induction requests generalizing c with
  | nil => trivial
  | cons timed rest ih =>
    obtain ⟨hfirst, hrest⟩ := pairwise_cons.mp hclock
    refine ⟨fun exchange hmem => hpast exchange hmem timed (mem_cons_self ..), ?_⟩
    apply ih hrest
    intro exchange hmem later hlater
    rw [advance_past] at hmem
    rcases mem_append.mp hmem with hold | hnew
    · exact hpast exchange hold later (mem_cons_of_mem _ hlater)
    · rw [mem_singleton] at hnew
      subst hnew
      exact hfirst later hlater

end Views

/-- **Integrity and isolation.** Whatever is sent by whom, the clock not running
backwards: a `complete` answer belongs to a sender and a digest, its bytes have
that digest and are chunks of that sender's frames, and the same message is not
completed again before the retention time is over.  And what a sender is told
depends only on what it asks itself, while no capacity runs out. -/
theorem wire_integrity_isolation (digest : List UInt8 → JsString) (limits : Limits)
    (requests : List Timed) (hclock : Clocked requests) :
    let past := (runFrom digest limits (start {}) requests).past
    (∀ (k : Nat) (exchange : Exchange) (payload : Json) (serialized : JsString),
      past[k]? = some exchange → exchange.2 = some (.complete payload serialized) →
      ∃ senderId sha256, CompletesFor limits exchange senderId sha256 payload serialized) ∧
    (∀ (k : Nat) (exchange : Exchange) (senderId sha256 : JsString) (payload : Json)
      (serialized : JsString), past[k]? = some exchange →
      CompletesFor limits exchange senderId sha256 payload serialized →
      Genuine digest limits ((past.take (k + 1)).map Prod.fst) senderId sha256 payload
        serialized) ∧
    (∀ (j k : Nat) (first second : Exchange) (senderId sha256 : JsString) (p p' : Json)
      (t t' : JsString), j < k → past[j]? = some first → past[k]? = some second →
      CompletesFor limits first senderId sha256 p t →
      CompletesFor limits second senderId sha256 p' t' →
      first.1.now + limits.ttlMs ≤ second.1.now) ∧
    ∀ (senderId : JsString) (requests' : List Timed), Clocked requests' →
      requests.filter (concerns senderId) = requests'.filter (concerns senderId) →
      UnhinderedFrom digest limits senderId (start {}) requests →
      UnhinderedFrom digest limits senderId (start {}) requests' →
      answersTo senderId past =
        answersTo senderId (runFrom digest limits (start {}) requests').past := by
  have hreach : Reach (serve digest limits) clockForward (start {})
      (runFrom digest limits (start {}) requests) := by
    apply reach_of_clocked hclock
    intro exchange hmem
    cases hmem
  refine ⟨?_, ?_, ?_, ?_⟩
  · intro k exchange payload serialized hk hcomplete
    exact complete_for hreach hk hcomplete
  · intro k exchange senderId sha256 payload serialized hk hcompletes
    exact complete_genuine hreach hk hcompletes
  · intro j k first second senderId sha256 p p' t t' hjk hj hk hfirst hsecond
    exact complete_once hreach hjk hj hk hfirst hsecond
  · intro senderId requests' hclock' hsame hroom hroom'
    apply answers_agree (requests.filter (concerns senderId)) traced_start traced_start rfl
      hsame.symm hclock hclock' hroom hroom'
    · intro timed _
      exact Same.refl senderId timed.now _
    · rfl

/-! ## A run -/

/-- The digest of the two bytes `{}`. -/
def bracesDigest : List UInt8 → JsString := fun _ =>
  js "44136fa355b3678a1146ad16f7e8649e94fb4fc21fe77e8310c060f61caaff8a"

/-- The empty record as a message of one chunk. -/
def bracesFrame : Json :=
  .obj [(js "msg_type", .str (js "discussion_wire_chunk")), (js "protocolVersion", Json.ofNat 2),
    (js "messageId", .str (wireMessageId (bracesDigest []))),
    (js "sha256", .str (bracesDigest [])), (js "chunkIndex", Json.ofNat 0),
    (js "chunkCount", Json.ofNat 1), (js "data", .str (js "e30="))]

/-- Two senders send the same message, the first of them twice. -/
def bracesRequests : List Timed :=
  [⟨0, .accept (js "a") bracesFrame⟩, ⟨1, .accept (js "b") bracesFrame⟩,
    ⟨2, .accept (js "a") bracesFrame⟩]

/-- Both are told of the completion, and the first sender is told the same when
it is alone. -/
theorem wire_integrity_isolation_braces :
    (answersTo (js "b") (runFrom bracesDigest Limits.default (start {})
        bracesRequests).past).map (Option.any DiscussionWireResult.isComplete) = [true] ∧
      (answersTo (js "a") (runFrom bracesDigest Limits.default (start {})
        bracesRequests).past).map (Option.any DiscussionWireResult.isComplete) = [true, false] ∧
      answersTo (js "a") (runFrom bracesDigest Limits.default (start {})
          bracesRequests).past =
        answersTo (js "a") (runFrom bracesDigest Limits.default (start {})
          (bracesRequests.filter (concerns (js "a")))).past := by
  have hclock : Clocked bracesRequests := by
    simp [Clocked, bracesRequests]
  have hclock' : Clocked (bracesRequests.filter (concerns (js "a"))) := hclock.filter _
  have hroom : UnhinderedFrom bracesDigest Limits.default (js "a") (start {})
      bracesRequests := by
    decide +kernel
  have hroom' : UnhinderedFrom bracesDigest Limits.default (js "a") (start {})
      (bracesRequests.filter (concerns (js "a"))) := by
    decide +kernel
  refine ⟨by decide +kernel, by decide +kernel, ?_⟩
  apply (wire_integrity_isolation bracesDigest Limits.default bracesRequests hclock).2.2.2 (js "a")
    _ hclock' ?_ hroom hroom'
  rw [filter_filter]
  simp

end ClawMessenger.Ports.DiscussionWire
