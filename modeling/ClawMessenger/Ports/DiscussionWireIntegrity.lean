import ClawMessenger.Ports.DiscussionWireAccounting

/-!
# What a completed message is made of

Every chunk of a partial message was brought by a frame of the message's own
sender, at its own index (`Sourced`); so when a message completes, its bytes are
chunks that sender sent, and their digest is the one the message names.  The
completed entry then turns every further frame of the message into a replay
until its time is over (`Remembered`).
-/

namespace ClawMessenger.Ports.DiscussionWire

open Verified Verified.Machine Verified.JsString List
open Verified.Json (parse stringify)

section Integrity

variable {digest : List UInt8 → JsString} {limits : Limits}

/-! ## Completing -/

/-- What lies behind the answer `complete`. -/
structure Completion (digest : List UInt8 → JsString) (limits : Limits) (r : Reassembler)
    (timed : Timed) (payload : Json) (serialized : JsString) (arriving : Arriving)
    (frame : Frame) (raw : List UInt8) (message : PartialMessage) : Prop where
  live : r.disposed = false
  arrives : timed.request.arriving? = some arriving
  reads : readFrame limits arriving = some (frame, raw)
  admitted : Admitted limits timed.now (r.cleanup timed.now) arriving.senderId
    (frameKey arriving frame) frame raw message
  full : message.chunkCount ≤ (extended limits timed.now message frame raw).chunks.size
  bytes : utf8 serialized =
    (orderedChunks (extended limits timed.now message frame raw)).flatten
  genuine : digest (utf8 serialized) = message.sha256
  parses : parse serialized = some payload
  result : (serve digest limits r timed).2 =
    (r.cleanup timed.now).completeMessage (frameKey arriving frame)
      ⟨timed.now + limits.ttlMs, message.protocolVersion⟩

variable {r : Reassembler} {past : List Timed} {senderId key : JsString}
  {c : Config Reassembler Timed (Option DiscussionWireResult)}

variable {timed : Timed} {payload : Json} {serialized : JsString}

theorem exists_completion (h : Accounted limits r)
    (hanswer : (serve digest limits r timed).1 = some (.complete payload serialized)) :
    ∃ arriving frame raw message,
      Completion digest limits r timed payload serialized arriving frame raw message := by
  have heffect := serve_effect digest limits r timed
  generalize hserved : serve digest limits r timed = served at heffect hanswer
  cases heffect with
  | outright =>
    have hnot := outright_not_complete timed.request
    rw [Option.some.inj hanswer] at hnot
    cases hnot
  | unread => cases hanswer
  | chunk arriving frame raw outcome hlive harrives hread hchunk =>
    have hindex := readFrame_index hread
    cases hchunk with
    | kept result hnot =>
      have hresult : result = .complete payload serialized := Option.some.inj hanswer
      rw [hresult] at hnot
      cases hnot
    | dropped | added => cases hanswer
    | finished message ha hfull =>
      rcases ha.finish digest (h.cleanup timed.now) hindex hfull with hout | hout
      · rw [hout] at hanswer
        cases hanswer
      · obtain ⟨payload', serialized', hbytes, hdigest, hparse, _, hout⟩ := hout
        rw [hout] at hanswer hserved
        cases hanswer
        exact ⟨arriving, frame, raw, message, hlive, harrives, hread, ha, hfull, hbytes,
          hdigest, hparse, by rw [hserved]⟩
  | clearedDiscussion | clearedPartials | disposed => cases hanswer

/-! ## Where chunks come from -/

/-- A sender brought a chunk of a message. -/
def SentChunk (limits : Limits) (past : List Timed) (senderId messageId : JsString) (index : Nat)
    (chunk : List UInt8) : Prop :=
  ∃ timed ∈ past, ∃ arriving frame, timed.request.arriving? = some arriving ∧
    arriving.senderId = senderId ∧ readFrame limits arriving = some (frame, chunk) ∧
    frame.messageId = messageId ∧ frame.chunkIndex = index

structure Sourced (limits : Limits) (past : List Timed) (key : JsString)
    (message : PartialMessage) : Prop where
  key : key = messageKey message.senderId (wireMessageId message.sha256)
  chunks : ∀ index chunk, message.chunks.get? index = some chunk →
    SentChunk limits past message.senderId (wireMessageId message.sha256) index chunk

variable {past' : List Timed}

theorem SentChunk.mono (hsub : past ⊆ past') {messageId : JsString} {index : Nat}
    {chunk : List UInt8} (h : SentChunk limits past senderId messageId index chunk) :
    SentChunk limits past' senderId messageId index chunk := by
  obtain ⟨timed, hmem, hrest⟩ := h
  exact ⟨timed, hsub hmem, hrest⟩

variable {message : PartialMessage}

theorem Sourced.mono (hsub : past ⊆ past') (h : Sourced limits past key message) :
    Sourced limits past' key message :=
  ⟨h.key, fun index chunk hget => (h.chunks index chunk hget).mono hsub⟩

variable {frame : Frame}

theorem validFrame_wireMessageId {value : Json} {bytes : Nat}
    (h : validFrame limits senderId value bytes = some frame) :
    frame.messageId = wireMessageId frame.sha256 := by
  simp only [validFrame, Option.bind_eq_bind, Option.bind_eq_some_iff, Option.pure_def,
    Option.some.injEq] at h
  obtain ⟨_, _, _, _, _, _, _, _, _, _, sha256, _, _, _, messageId, _, _, hname, _, _, _, _, _, _,
    _, _, _, _, _, _, _, _, rfl⟩ := h
  simpa [guard] using hname

variable {arriving : Arriving} {raw : List UInt8}

theorem readFrame_wireMessageId (h : readFrame limits arriving = some (frame, raw)) :
    frame.messageId = wireMessageId frame.sha256 := by
  simp only [readFrame, Option.bind_eq_some_iff] at h
  obtain ⟨frame', hframe, raw', _, hlen⟩ := h
  split at hlen
  · cases hlen
  · cases hlen
    exact validFrame_wireMessageId hframe

/-- The message a frame's chunk went into. -/
structure Grown (limits : Limits) (r : Reassembler) (timed : Timed) (key : JsString)
    (arriving : Arriving) (frame : Frame) (raw : List UInt8) (message : PartialMessage) :
    Prop where
  arrives : timed.request.arriving? = some arriving
  reads : readFrame limits arriving = some (frame, raw)
  key : key = frameKey arriving frame
  target : Target limits timed.now (r.cleanup timed.now) arriving.senderId
    (frameKey arriving frame) frame raw message

variable {after : PartialMessage}

/-- A partial message after a request was there before it, or is one the
request's chunk was added to. -/
theorem partial_of_serve (h : Accounted limits r)
    (hget : (serve digest limits r timed).2.partials.get? key = some after) :
    r.partials.get? key = some after ∨
      ∃ arriving frame raw message, Grown limits r timed key arriving frame raw message ∧
        after = extended limits timed.now message frame raw := by
  have hclean : ∀ k m, (r.cleanup timed.now).partials.get? k = some m →
      r.partials.get? k = some m := by
    intro k m hk
    rw [Reassembler.cleanup_get?_partials, Option.filter_eq_some_iff] at hk
    exact hk.1
  have hremove : ∀ removed, ((r.cleanup timed.now).remove removed).partials.get? key = some after →
      r.partials.get? key = some after := by
    intro removed hk
    rw [Reassembler.remove_get?] at hk
    split at hk
    · cases hk
    · exact hclean key after hk
  have heffect := serve_effect digest limits r timed
  generalize serve digest limits r timed = served at heffect hget
  cases heffect with
  | outright => exact .inl hget
  | unread => exact .inl (hclean key after hget)
  | chunk arriving frame raw outcome hlive harrives hread hchunk =>
    cases hchunk with
    | kept => exact .inl (hclean key after hget)
    | dropped => exact .inl (hremove _ hget)
    | added message ha hmore =>
      rw [Reassembler.putMessage] at hget
      rw [OrderedMap.get?_set] at hget
      by_cases hkey : key = frameKey arriving frame
      · rw [if_pos hkey, Option.some.injEq] at hget
        right
        exact ⟨arriving, frame, raw, message, ⟨harrives, hread, hkey, ha.target⟩, hget.symm⟩
      · rw [if_neg hkey] at hget
        exact .inl (hclean key after hget)
    | finished message ha hfull =>
      left
      rcases ha.finish digest (h.cleanup timed.now) (readFrame_index hread) hfull
        with hout | hout
      · rw [hout] at hget
        exact hremove _ hget
      · obtain ⟨_, _, _, _, _, _, hout⟩ := hout
        rw [hout] at hget
        exact hremove _ hget
  | clearedDiscussion senderId discussionId =>
    dsimp only at hget
    rw [Reassembler.clearDiscussion, Reassembler.removeWhere_get?,
      Option.filter_eq_some_iff] at hget
    exact .inl hget.1
  | clearedPartials => cases hget
  | disposed =>
    dsimp only at hget
    rw [Reassembler.dispose] at hget
    split at hget
    · exact .inl hget
    · cases hget

/-- A message and its source once a frame's chunk is added. -/
theorem sourced_extended
    (hsourced : ∀ key message, r.partials.get? key = some message → Sourced limits past key message)
    (harrives : timed.request.arriving? = some arriving)
    (hread : readFrame limits arriving = some (frame, raw))
    (ht : Target limits timed.now (r.cleanup timed.now) arriving.senderId (frameKey arriving frame) frame raw message) :
    (extended limits timed.now message frame raw).senderId = arriving.senderId ∧
      (extended limits timed.now message frame raw).sha256 = frame.sha256 ∧
      Sourced limits (past ++ [timed]) (frameKey arriving frame)
        (extended limits timed.now message frame raw) := by
  have hsub : past ⊆ past ++ [timed] := subset_append_left _ _
  have hsent : SentChunk limits (past ++ [timed]) arriving.senderId frame.messageId
      frame.chunkIndex raw :=
    ⟨timed, mem_append_right _ (mem_singleton_self _), arriving, frame, harrives, rfl,
      hread, rfl, rfl⟩
  have hname := readFrame_wireMessageId hread
  have hbefore : message.senderId = arriving.senderId ∧ message.sha256 = frame.sha256 ∧
      ∀ index chunk, message.chunks.get? index = some chunk →
        SentChunk limits (past ++ [timed]) arriving.senderId frame.messageId index chunk := by
    cases ht with
    | opened =>
      refine ⟨rfl, rfl, ?_⟩
      intro index chunk hchunk
      cases hchunk
    | stored _ hstored hfits =>
      rw [Reassembler.cleanup_get?_partials, Option.filter_eq_some_iff] at hstored
      have hsource := hsourced _ message hstored.1
      obtain ⟨hsender, hmessage⟩ := messageKey_injective hsource.key
      simp only [PartialMessage.fits, decide_eq_true_eq] at hfits
      refine ⟨hsender.symm, hfits.1, ?_⟩
      intro index chunk hchunk
      have hold := (hsource.chunks index chunk hchunk).mono hsub
      rwa [← hsender, ← hmessage] at hold
  obtain ⟨hsender, hsha, hchunks⟩ := hbefore
  have hafterSender : (extended limits timed.now message frame raw).senderId =
      arriving.senderId := hsender
  have hafterSha : (extended limits timed.now message frame raw).sha256 = frame.sha256 := hsha
  refine ⟨hafterSender, hafterSha, ?_, ?_⟩
  · rw [hafterSender, hafterSha, ← hname]
    rfl
  · intro index chunk hchunk
    rw [hafterSender, hafterSha, ← hname]
    have hget : (extended limits timed.now message frame raw).chunks.get? index =
        if index = frame.chunkIndex then some raw else message.chunks.get? index :=
      OrderedMap.get?_set message.chunks frame.chunkIndex index raw
    rw [hget] at hchunk
    by_cases heq : index = frame.chunkIndex
    · rw [if_pos heq, Option.some.injEq] at hchunk
      rw [heq, ← hchunk]
      exact hsent
    · rw [if_neg heq] at hchunk
      exact hchunks index chunk hchunk

theorem Sourced.serve (h : Accounted limits r)
    (hsourced : ∀ key message, r.partials.get? key = some message → Sourced limits past key message)
    (timed : Timed)
    (hget : (serve digest limits r timed).2.partials.get? key = some after) :
    Sourced limits (past ++ [timed]) key after := by
  rcases partial_of_serve h hget with hold | ⟨arriving, frame, raw, message, hgrown, rfl⟩
  · exact (hsourced key after hold).mono (subset_append_left _ _)
  · rw [hgrown.key]
    exact (sourced_extended hsourced hgrown.arrives hgrown.reads hgrown.target).2.2

/-! ## Completed messages are remembered -/

theorem serve_disposed (h : r.disposed = true) (timed : Timed) :
    (serve digest limits r timed).2.disposed = true := by
  have heffect := serve_effect digest limits r timed
  generalize serve digest limits r timed = served at heffect ⊢
  cases heffect with
  | outright => exact h
  | unread _ hlive | chunk _ _ _ _ hlive => rw [h] at hlive; cases hlive
  | clearedDiscussion => exact (Reassembler.removeWhere_disposed r _).trans h
  | clearedPartials => exact h
  | disposed =>
    rw [Reassembler.dispose, if_pos h]
    exact h

variable (digest) in
/-- A completed entry stays until the clock passes it or the reassembler is
disposed of. -/
theorem completed_persists (h : Accounted limits r) (timed : Timed) {done : CompletedMessage}
    (hget : r.completed.get? key = some done) :
    (serve digest limits r timed).2.disposed = true ∨
      (serve digest limits r timed).2.completed.get? key = some done ∨
      done.expiresAt ≤ timed.now := by
  by_cases hexpired : done.expiresAt ≤ timed.now
  · exact .inr (.inr hexpired)
  · have hclean : (r.cleanup timed.now).completed.get? key = some done := by
      rw [Reassembler.cleanup_get?_completed, hget]
      simp [Option.filter, hexpired]
    have heffect := serve_effect digest limits r timed
    generalize serve digest limits r timed = served at heffect ⊢
    cases heffect with
    | outright => exact .inr (.inl hget)
    | unread => exact .inr (.inl hclean)
    | chunk arriving frame raw outcome hlive harrives hread hchunk =>
      right
      left
      cases hchunk with
      | kept => exact hclean
      | dropped => rw [Reassembler.remove_completed]; exact hclean
      | added => exact hclean
      | finished message ha hfull =>
        rcases ha.finish digest (h.cleanup timed.now) (readFrame_index hread)
          hfull with hout | hout
        · rw [hout, Reassembler.remove_completed]
          exact hclean
        · obtain ⟨_, _, _, _, _, _, hout⟩ := hout
          have hne : key ≠ frameKey arriving frame := by
            intro heq
            have hnone := ha.unfinished
            rw [← heq, hclean] at hnone
            cases hnone
          rw [hout, Reassembler.completeMessage]
          rw [OrderedMap.get?_set_ne _ _ hne]
          exact hclean
    | clearedDiscussion =>
      right
      left
      rw [Reassembler.clearDiscussion, Reassembler.removeWhere_completed]
      exact hget
    | clearedPartials => exact .inr (.inl hget)
    | disposed =>
      left
      unfold Reassembler.dispose
      split
      · next hdisposed => exact hdisposed
      · rfl

/-! ## Histories -/

abbrev Exchange := Timed × Option DiscussionWireResult

/-- The exchange completes the message of a sender that is named by the digest. -/
def CompletesFor (limits : Limits) (exchange : Exchange) (senderId sha256 : JsString)
    (payload : Json) (serialized : JsString) : Prop :=
  exchange.2 = some (.complete payload serialized) ∧
    ∃ arriving frame raw, exchange.1.request.arriving? = some arriving ∧
      arriving.senderId = senderId ∧ readFrame limits arriving = some (frame, raw) ∧
      frame.messageId = wireMessageId sha256

/-- The completion behind an exchange that completes a message. -/
theorem CompletesFor.completion {exchange : Exchange} {sha256 : JsString} (h : Accounted limits r)
    (hanswer : exchange.2 = (serve digest limits r exchange.1).1)
    (hcompletes : CompletesFor limits exchange senderId sha256 payload serialized) :
    ∃ arriving frame raw message,
      Completion digest limits r exchange.1 payload serialized arriving frame raw message ∧
        arriving.senderId = senderId ∧ frame.messageId = wireMessageId sha256 := by
  obtain ⟨hcomplete, arriving, frame, raw, harrives, hsender, hread, hname⟩ := hcompletes
  rw [hcomplete] at hanswer
  obtain ⟨arriving', frame', raw', message, hcompletion⟩ := exists_completion h hanswer.symm
  have harriving : arriving' = arriving := by
    rw [← Option.some.injEq, ← harrives, ← hcompletion.arrives]
  subst harriving
  have hframe : (frame', raw') = (frame, raw) := by
    rw [← Option.some.injEq, ← hread, ← hcompletion.reads]
  cases hframe
  exact ⟨_, _, _, _, hcompletion, hsender, hname⟩

/-- The completed entry of a sender's message outlives its time, or the clock
has passed it. -/
def Remembered (limits : Limits) (past : List Exchange) (r : Reassembler) : Prop :=
  ∀ exchange ∈ past, ∀ senderId sha256 payload serialized,
    CompletesFor limits exchange senderId sha256 payload serialized →
    r.disposed = true ∨
      (∃ done, r.completed.get? (messageKey senderId (wireMessageId sha256)) = some done ∧
        exchange.1.now + limits.ttlMs ≤ done.expiresAt) ∨
      ∃ later ∈ past, exchange.1.now + limits.ttlMs ≤ later.1.now

/-- The invariant of a run. -/
structure Traced (limits : Limits) (c : Config Reassembler Timed (Option DiscussionWireResult)) :
    Prop where
  accounted : Accounted limits c.state
  sourced : ∀ key message, c.state.partials.get? key = some message →
    Sourced limits (c.past.map Prod.fst) key message
  remembered : Remembered limits c.past c.state

/-- The clock does not run backwards. -/
def clockForward (c : Config Reassembler Timed (Option DiscussionWireResult)) (timed : Timed) :
    Prop :=
  ∀ exchange ∈ c.past, exchange.1.now ≤ timed.now

theorem traced_start : Traced limits (start {}) := by
  refine ⟨accounted_empty, ?_, ?_⟩
  · intro key message hget
    cases hget
  · intro exchange hmem
    cases hmem

theorem Traced.remembered_step (h : Traced limits c) (timed : Timed) :
    Remembered limits (advance (serve digest limits) c timed).past
      (advance (serve digest limits) c timed).state := by
  intro exchange hmem senderId sha256 payload serialized hcompletes
  rw [advance_past] at hmem ⊢
  rw [advance_state]
  rcases mem_append.mp hmem with hold | hnew
  · rcases h.remembered exchange hold senderId sha256 payload serialized hcompletes with
      hdisposed | ⟨done, hget, hlate⟩ | ⟨later, hlater, hlate⟩
    · exact .inl (serve_disposed hdisposed timed)
    · rcases completed_persists digest h.accounted timed hget with
        hdisposed | hkept | hexpired
      · exact .inl hdisposed
      · exact .inr (.inl ⟨done, hkept, hlate⟩)
      · right
        right
        refine ⟨(timed, (serve digest limits c.state timed).1),
          mem_append_right _ (mem_singleton_self _), ?_⟩
        dsimp only
        omega
    · exact .inr (.inr ⟨later, mem_append_left _ hlater, hlate⟩)
  · rw [mem_singleton] at hnew
    subst hnew
    obtain ⟨arriving, frame, raw, message, hcompletion, rfl, hname⟩ :=
      hcompletes.completion h.accounted rfl
    right
    left
    refine ⟨⟨timed.now + limits.ttlMs, message.protocolVersion⟩, ?_, Int.le_refl _⟩
    rw [hcompletion.result, Reassembler.completeMessage, ← hname]
    exact OrderedMap.get?_set_self ..

variable (digest) in
theorem Traced.step (h : Traced limits c) (timed : Timed) :
    Traced limits (advance (serve digest limits) c timed) := by
  refine ⟨h.accounted.serve timed, ?_, h.remembered_step timed⟩
  intro key message hget
  rw [advance_past, map_append]
  exact Sourced.serve h.accounted h.sourced timed hget

theorem traced_of_reach
    (h : Reach (serve digest limits) clockForward (start {}) c) :
    Traced limits c :=
  h.invariant (fun _ timed _ hd => hd.step digest timed) traced_start

/-! ## What a completed message is -/

/-- The bytes of a completed message, cut where the sender's frames cut them. -/
structure Genuine (digest : List UInt8 → JsString) (limits : Limits) (past : List Timed)
    (senderId sha256 : JsString) (payload : Json) (serialized : JsString) : Prop where
  digest : digest (utf8 serialized) = sha256
  parses : parse serialized = some payload
  sent : ∃ chunks : List (List UInt8), utf8 serialized = chunks.flatten ∧
    ∀ index chunk, chunks[index]? = some chunk →
      SentChunk limits past senderId (wireMessageId sha256) index chunk

theorem wireMessageId_injective {a b : JsString} (h : wireMessageId a = wireMessageId b) : a = b :=
  append_cancel_left h

variable {exchange : Exchange}

/-- Every `complete` answer completes some message. -/
theorem complete_for (h : Reach (serve digest limits) clockForward (start {}) c)
    {k : Nat} (hk : c.past[k]? = some exchange)
    (hcomplete : exchange.2 = some (.complete payload serialized)) :
    ∃ senderId sha256, CompletesFor limits exchange senderId sha256 payload serialized := by
  obtain ⟨d, hd, _, _, hanswer⟩ := h.before hk
  rw [hcomplete] at hanswer
  obtain ⟨arriving, frame, raw, message, hcompletion⟩ :=
    exists_completion (traced_of_reach hd).accounted hanswer.symm
  exact ⟨arriving.senderId, frame.sha256, hcomplete, arriving, frame, raw, hcompletion.arrives, rfl,
    hcompletion.reads, readFrame_wireMessageId hcompletion.reads⟩

variable {sha256 : JsString}

section

variable (h : Reach (serve digest limits) clockForward (start {}) c)
include h

/-- **Integrity.** The answer `complete` for a message of a sender gives bytes
with the digest that names the message, put together from chunks of that
sender's frames, each at the index it was sent for. -/
theorem complete_genuine {k : Nat} (hk : c.past[k]? = some exchange)
    (hcompletes : CompletesFor limits exchange senderId sha256 payload serialized) :
    Genuine digest limits ((c.past.take (k + 1)).map Prod.fst) senderId sha256 payload
      serialized := by
  obtain ⟨d, hd, hpast, _, hanswer⟩ := h.before hk
  have htraced := traced_of_reach hd
  obtain ⟨arriving, frame, raw, message, hcompletion, rfl, hname⟩ :=
    hcompletes.completion htraced.accounted hanswer
  have hread := hcompletion.reads
  have htake : (c.past.take (k + 1)).map Prod.fst = d.past.map Prod.fst ++ [exchange.1] := by
    rw [List.take_add_one, hk, hpast]
    simp
  obtain ⟨hsender, hsha, hsource⟩ :=
    sourced_extended htraced.sourced hcompletion.arrives hread hcompletion.admitted.target
  have hsame : frame.sha256 = sha256 := by
    apply wireMessageId_injective
    rw [← readFrame_wireMessageId hread, hname]
  refine ⟨?_, hcompletion.parses, _, hcompletion.bytes, ?_⟩
  · rw [hcompletion.genuine, ← hsame]
    exact hsha
  · intro index chunk hchunk
    have hr := hcompletion.admitted.target.receptive
      (htraced.accounted.cleanup exchange.1.now) (readFrame_index hread)
    have hlt : index < message.chunkCount := by
      have hlen := (List.getElem?_eq_some_iff.mp hchunk).1
      rw [orderedChunks, List.length_map, List.length_range] at hlen
      exact hlen
    have hsome := isSome_of_full (extended limits exchange.1.now message frame raw)
      (extended_index_lt _ _ hr (readFrame_index hread)) hcompletion.full hlt
    have hget : (extended limits exchange.1.now message frame raw).chunks.get? index =
        some chunk := by
      have hcount : index < (extended limits exchange.1.now message frame raw).chunkCount := hlt
      rw [orderedChunks, List.getElem?_map, List.getElem?_range hcount, Option.map_some,
        Option.some.injEq] at hchunk
      cases hstored : (extended limits exchange.1.now message frame raw).chunks.get? index with
      | none => rw [hstored] at hsome; cases hsome
      | some stored => rw [← hchunk, hstored]; rfl
    rw [htake, ← hsame, ← hsender, ← hsha]
    exact hsource.chunks index chunk hget

/-- **At most once.** Two completions of one message of one sender are at least
the retention time apart. -/
theorem complete_once {j k : Nat} {first second : Exchange} (hjk : j < k)
    (hj : c.past[j]? = some first) (hk : c.past[k]? = some second) {p p' : Json} {t t' : JsString}
    (hfirst : CompletesFor limits first senderId sha256 p t)
    (hsecond : CompletesFor limits second senderId sha256 p' t') :
    first.1.now + limits.ttlMs ≤ second.1.now := by
  obtain ⟨d, hd, hpast, hclock, hanswer⟩ := h.before hk
  have htraced := traced_of_reach hd
  have hmem : first ∈ d.past := by
    rw [hpast]
    apply mem_of_getElem?
    rw [getElem?_take_of_lt hjk]
    exact hj
  obtain ⟨arriving, frame, raw, message, hcompletion, hsender, hname⟩ :=
    hsecond.completion htraced.accounted hanswer
  have hkey : frameKey arriving frame = messageKey senderId (wireMessageId sha256) := by
    rw [frameKey, hsender, hname]
  rcases htraced.remembered first hmem senderId sha256 p t hfirst with
    hdisposed | ⟨done, hget, hlate⟩ | ⟨later, hlater, hlate⟩
  · have hlive := hcompletion.live
    rw [hdisposed] at hlive
    cases hlive
  · have hnone := hcompletion.admitted.unfinished
    rw [hkey, Reassembler.cleanup_get?_completed, hget] at hnone
    by_cases hexpired : done.expiresAt ≤ second.1.now
    · omega
    · simp [Option.filter, hexpired] at hnone
  · have hpassed := hclock later hlater
    omega

end

end Integrity

end ClawMessenger.Ports.DiscussionWire
