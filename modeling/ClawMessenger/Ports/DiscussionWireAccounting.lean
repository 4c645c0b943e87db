import ClawMessenger.Ports.DiscussionWireRequests

/-!
# What a reassembler holds

`Accounted limits r` is the invariant of every state a reassembler can reach:
the byte counter is the total of the stored chunks, every partial message is
short of at least one chunk and holds at least one, and nothing is both partial
and completed.  `Accounted.serve` is the step; the clock plays no part in it.
-/

namespace ClawMessenger.Ports.DiscussionWire

open Verified Verified.Machine Verified.JsString List
open Verified.Json (parse stringify)
open OrderedMap (erase_set get?_eq_none_iff get?_set get?_set_self has has_eq_false_iff
  size_filter_le size_set total total_set weightAt_of_get?)

/-! ## The invariant -/

/-- The bytes of all chunks of a message. -/
def PartialMessage.chunkTotal (message : PartialMessage) : Nat := message.chunks.total List.length

/-- The bytes of all stored chunks. -/
def Reassembler.chunkTotal (r : Reassembler) : Nat := r.partials.total PartialMessage.chunkTotal

/-- A partial message holds some of its chunks, not all. -/
structure Ongoing (limits : Limits) (message : PartialMessage) : Prop where
  nonempty : 1 ≤ message.chunks.size
  unfinished : message.chunks.size < message.chunkCount
  indices : ∀ index, (message.chunks.get? index).isSome = true → index < message.chunkCount
  receivedBytes : message.receivedBytes = message.chunkTotal
  bounded : message.chunkTotal ≤ limits.maxMessageBytes

structure Accounted (limits : Limits) (r : Reassembler) : Prop where
  ongoing : ∀ key message, r.partials.get? key = some message → Ongoing limits message
  storedBytes : r.storedBytes = r.partials.total PartialMessage.receivedBytes
  inflightBytes : r.storedBytes ≤ limits.maxInflightBytes
  inflight : r.partials.size ≤ limits.maxInflightMessages
  exclusive : ∀ key message, r.partials.get? key = some message → r.completed.get? key = none
  completed : r.completed.size ≤ limits.maxCompleted

section Accounting

variable {digest : List UInt8 → JsString} {limits : Limits}

theorem accounted_empty : Accounted limits {} := by
  refine ⟨?_, rfl, Nat.zero_le _, Nat.zero_le _, ?_, Nat.zero_le _⟩
  · intro key message hget
    cases hget
  · intro key message hget
    cases hget

variable {r : Reassembler} {frame : Frame} {key senderId : JsString} {message : PartialMessage}
  {now : Int} {raw : List UInt8}

/-- The counter is the total of the chunks themselves. -/
theorem Accounted.chunkTotal (h : Accounted limits r) :
    r.storedBytes = r.chunkTotal := by
  rw [h.storedBytes, Reassembler.chunkTotal, total, total]
  congr 1
  apply map_congr_left
  intro e he
  have hget : r.partials.get? e.1 = some e.2 := OrderedMap.get?_eq_some_iff.mpr he
  exact (h.ongoing e.1 e.2 hget).receivedBytes

/-! ## Taking messages away -/

section

variable (h : Accounted limits r)
include h

theorem Accounted.remove (key : JsString) :
    Accounted limits (r.remove key) := by
  have hget := Reassembler.remove_get? r key
  unfold Reassembler.remove at hget ⊢
  cases hmessage : r.partials.get? key with
  | none => exact h
  | some message =>
    rw [hmessage] at hget
    have htotal := OrderedMap.total_erase r.partials PartialMessage.receivedBytes key
    rw [weightAt_of_get? _ hmessage, ← h.storedBytes] at htotal
    have hsub : ∀ k m, (r.partials.erase key).get? k = some m → r.partials.get? k = some m := by
      intro k m hk
      rw [hget k] at hk
      split at hk
      · cases hk
      · exact hk
    refine ⟨fun k m hk => h.ongoing k m (hsub k m hk), ?_,
      Nat.le_trans (Nat.sub_le _ _) h.inflightBytes,
      Nat.le_trans (size_filter_le _ _) h.inflight,
      fun k m hk => h.exclusive k m (hsub k m hk), h.completed⟩
    dsimp only
    omega

theorem Accounted.removeWhere (test : PartialMessage → Bool) :
    Accounted limits (r.removeWhere test) := by
  have hfold : ∀ (entries : List (JsString × PartialMessage)) (r' : Reassembler),
      Accounted limits r' →
      Accounted limits (entries.foldl
        (fun r entry => if test entry.2 then r.remove entry.1 else r) r') := by
    intro entries
    induction entries with
    | nil => exact fun _ h' => h'
    | cons entry rest ih =>
      intro r' h'
      rw [foldl_cons]
      apply ih
      split
      · exact h'.remove entry.1
      · exact h'
  exact hfold r.partials.entries r h

theorem Accounted.cleanup (now : Int) :
    Accounted limits (r.cleanup now) := by
  have hpartials := h.removeWhere fun message => decide (message.expiresAt ≤ now)
  refine ⟨hpartials.ongoing, hpartials.storedBytes, hpartials.inflightBytes, hpartials.inflight,
    ?_, Nat.le_trans (size_filter_le _ _) hpartials.completed⟩
  intro key message hget
  have hnone := hpartials.exclusive key message hget
  rw [Reassembler.cleanup, OrderedMap.get?_filter, hnone]
  rfl

theorem Accounted.clearPartials :
    Accounted limits r.clearPartials := by
  refine ⟨?_, rfl, Nat.zero_le _, Nat.zero_le _, ?_, h.completed⟩
  · intro key message hget
    cases hget
  · intro key message hget
    cases hget

theorem Accounted.dispose :
    Accounted limits r.dispose := by
  unfold Reassembler.dispose
  split
  · exact h
  · have hclear := h.clearPartials
    refine ⟨hclear.ongoing, hclear.storedBytes, hclear.inflightBytes, hclear.inflight, ?_,
      Nat.zero_le _⟩
    intro key message _
    rfl

end

/-! ## Adding a chunk -/

/-- What is known of a message when a chunk is about to be stored in it. -/
structure Receptive (limits : Limits) (message : PartialMessage) (frame : Frame) : Prop where
  chunkCount : message.chunkCount = frame.chunkCount
  room : message.chunks.size < message.chunkCount
  indices : ∀ index, (message.chunks.get? index).isSome = true → index < message.chunkCount
  receivedBytes : message.receivedBytes = message.chunkTotal

theorem Target.receptive (h : Accounted limits r) (hindex : frame.chunkIndex < frame.chunkCount)
    (ht : Target limits now r senderId key frame raw message) :
    Receptive limits message frame := by
  cases ht with
  | opened =>
    refine ⟨rfl, ?_, ?_, rfl⟩
    · show 0 < frame.chunkCount
      omega
    · intro index hsome
      cases hsome
  | stored _ hget hfits =>
    have hongoing := h.ongoing key message hget
    simp only [PartialMessage.fits, decide_eq_true_eq] at hfits
    exact ⟨hfits.2.2.1, hongoing.unfinished, hongoing.indices, hongoing.receivedBytes⟩

theorem Target.received_eq_weightAt (ht : Target limits now r senderId key frame raw message) :
    message.receivedBytes = r.partials.weightAt PartialMessage.receivedBytes key := by
  cases ht with
  | opened hnone => rw [OrderedMap.weightAt_of_get?_none _ hnone]; rfl
  | stored _ hget => rw [weightAt_of_get? _ hget]

theorem Target.size_set_le (h : Accounted limits r)
    (ht : Target limits now r senderId key frame raw message) (message' : PartialMessage) :
    (r.partials.set key message').size ≤ limits.maxInflightMessages := by
  have hinflight := h.inflight
  rw [size_set]
  cases ht with
  | opened _ hroom => split <;> omega
  | stored _ hget =>
    have hhas : r.partials.has key = true := by
      rw [has, hget]
      rfl
    rw [if_pos hhas]
    exact hinflight

theorem extended_chunkTotal (hfresh : message.chunks.get? frame.chunkIndex = none) :
    (extended limits now message frame raw).chunkTotal = message.chunkTotal + raw.length := by
  have htotal := total_set message.chunks length frame.chunkIndex raw
  rw [OrderedMap.weightAt_of_get?_none _ hfresh] at htotal
  exact htotal

theorem extended_size (hfresh : message.chunks.get? frame.chunkIndex = none) :
    (extended limits now message frame raw).chunks.size = message.chunks.size + 1 := by
  have hhas : message.chunks.has frame.chunkIndex = false :=
    has_eq_false_iff.mpr hfresh
  have hsize := size_set message.chunks frame.chunkIndex raw
  rw [if_neg (by simp [hhas])] at hsize
  exact hsize

theorem extended_index_lt (now : Int) (raw : List UInt8) (hr : Receptive limits message frame)
    (hindex : frame.chunkIndex < frame.chunkCount) (index : Nat)
    (hsome : ((extended limits now message frame raw).chunks.get? index).isSome = true) :
    index < message.chunkCount := by
  have hget : (extended limits now message frame raw).chunks.get? index =
      if index = frame.chunkIndex then some raw else message.chunks.get? index :=
    get?_set message.chunks frame.chunkIndex index raw
  rw [hget] at hsome
  by_cases heq : index = frame.chunkIndex
  · rw [heq, hr.chunkCount]
    exact hindex
  · rw [if_neg heq] at hsome
    exact hr.indices index hsome

theorem Accounted.added (h : Accounted limits r) (hindex : frame.chunkIndex < frame.chunkCount)
    (ha : Admitted limits now r senderId key frame raw message)
    (hmore : (extended limits now message frame raw).chunks.size < message.chunkCount) :
    Accounted limits
      (r.putMessage key (extended limits now message frame raw) raw.length) := by
  have hr := ha.target.receptive h hindex
  have htotal := total_set r.partials PartialMessage.receivedBytes key
    (extended limits now message frame raw)
  have hreceived : (extended limits now message frame raw).receivedBytes =
      message.receivedBytes + raw.length := rfl
  have hbytes := ha.messageBytes
  rw [← ha.target.received_eq_weightAt, ← h.storedBytes, hreceived] at htotal
  refine ⟨?_, ?_, ha.inflightBytes, ha.target.size_set_le h _, ?_, h.completed⟩
  · intro k m hk
    rw [Reassembler.putMessage] at hk
    rw [get?_set] at hk
    by_cases heq : k = key
    · rw [if_pos heq, Option.some.injEq] at hk
      subst hk
      refine ⟨?_, hmore, extended_index_lt _ _ hr hindex, ?_, ?_⟩
      · rw [extended_size ha.fresh]
        omega
      · rw [extended_chunkTotal ha.fresh, hreceived, hr.receivedBytes]
      · rw [extended_chunkTotal ha.fresh, ← hr.receivedBytes]
        exact hbytes
    · rw [if_neg heq] at hk
      exact h.ongoing k m hk
  · rw [Reassembler.putMessage]
    dsimp only
    omega
  · intro k m hk
    rw [Reassembler.putMessage] at hk ⊢
    rw [get?_set] at hk
    by_cases heq : k = key
    · rw [heq]
      exact ha.unfinished
    · rw [if_neg heq] at hk
      exact h.exclusive k m hk

/-! ## Finishing a message -/

/-- Putting a message and taking it away again only takes it away. -/
theorem Target.remove_putMessage (ht : Target limits now r senderId key frame raw message) :
    (r.putMessage key (extended limits now message frame raw) raw.length).remove key =
      r.remove key := by
  have hreceived : (extended limits now message frame raw).receivedBytes =
      message.receivedBytes + raw.length := rfl
  cases ht with
  | opened hnone =>
    have hempty : (newMessage limits now senderId frame).receivedBytes = 0 := rfl
    simp only [Reassembler.remove, Reassembler.putMessage, get?_set_self, hnone,
      erase_set, OrderedMap.erase_of_get?_none hnone, hreceived, hempty]
    simp
  | stored _ hget =>
    simp only [Reassembler.remove, Reassembler.putMessage, get?_set_self, hget,
      erase_set, hreceived, Nat.add_sub_add_right]

/-- The chunks of a message in order. -/
def orderedChunks (message : PartialMessage) : List (List UInt8) :=
  (List.range message.chunkCount).map fun index => (message.chunks.get? index).getD []

/-- A message with as many chunks as it counts has all of them. -/
theorem isSome_of_full (message : PartialMessage)
    (hindices : ∀ index, (message.chunks.get? index).isSome = true → index < message.chunkCount)
    (hfull : message.chunkCount ≤ message.chunks.size) {index : Nat}
    (hindex : index < message.chunkCount) : (message.chunks.get? index).isSome = true := by
  have hmem : ∀ k, (message.chunks.get? k).isSome = true ↔ k ∈ message.chunks.keys.toFinset := by
    intro k
    rw [mem_toFinset, Option.isSome_iff_ne_none, ne_eq, get?_eq_none_iff, not_not]
  have hcard := OrderedMap.size_eq_card hmem
  have hsub : message.chunks.keys.toFinset ⊆ Finset.range message.chunkCount := by
    intro k hk
    exact Finset.mem_range.mpr (hindices k ((hmem k).mpr hk))
  have heq := Finset.eq_of_subset_of_card_le hsub (by rw [Finset.card_range, ← hcard]; exact hfull)
  rw [hmem, heq]
  exact Finset.mem_range.mpr hindex

theorem mapM_orderedChunks
    (hall : ∀ index < message.chunkCount, (message.chunks.get? index).isSome = true) :
    (range message.chunkCount).mapM message.chunks.get? = some (orderedChunks message) := by
  apply mapM_some
  intro index hindex
  have hsome := hall index (mem_range.mp hindex)
  cases hget : message.chunks.get? index with
  | none => rw [hget] at hsome; cases hsome
  | some chunk => rfl

theorem flatten_orderedChunks_length
    (hindices : ∀ index, (message.chunks.get? index).isSome = true → index < message.chunkCount)
    (hall : ∀ index < message.chunkCount, (message.chunks.get? index).isSome = true) :
    (orderedChunks message).flatten.length = message.chunkTotal := by
  have hkeys : ∀ k, (message.chunks.get? k).isSome = true ↔ k ∈ range message.chunkCount := by
    intro k
    rw [mem_range]
    exact ⟨hindices k, hall k⟩
  rw [PartialMessage.chunkTotal, OrderedMap.total_eq_sum _ nodup_range hkeys,
    orderedChunks, length_flatten, map_map]
  congr 1
  apply map_congr_left
  intro k _
  show ((message.chunks.get? k).getD []).length =
    ((message.chunks.get? k).map length).getD 0
  cases message.chunks.get? k <;> rfl

variable (digest) in
/-- What finishing a message leads to, the message being complete. -/
theorem Admitted.finish (h : Accounted limits r) (hindex : frame.chunkIndex < frame.chunkCount)
    (ha : Admitted limits now r senderId key frame raw message)
    (hfull : message.chunkCount ≤ (extended limits now message frame raw).chunks.size) :
    let next := extended limits now message frame raw
    let outcome := finishMessage digest limits now (r.putMessage key next raw.length) key next
    outcome = (.invalid, r.remove key) ∨
      ∃ payload serialized, utf8 serialized = (orderedChunks next).flatten ∧
        digest (utf8 serialized) = message.sha256 ∧ parse serialized = some payload ∧
        r.completed.size < limits.maxCompleted ∧
        outcome = (.complete payload serialized,
          r.completeMessage key ⟨now + limits.ttlMs, message.protocolVersion⟩) := by
  have hr := ha.target.receptive h hindex
  have hindices := extended_index_lt now raw hr hindex
  have hall : ∀ index < (extended limits now message frame raw).chunkCount,
      ((extended limits now message frame raw).chunks.get? index).isSome = true := by
    intro index hlt
    exact isSome_of_full (extended limits now message frame raw) hindices hfull hlt
  have hreceived : (extended limits now message frame raw).receivedBytes =
      (extended limits now message frame raw).chunkTotal := by
    rw [extended_chunkTotal ha.fresh, ← hr.receivedBytes]
    rfl
  have hwhole : concatTo (orderedChunks (extended limits now message frame raw))
        (extended limits now message frame raw).receivedBytes =
      (orderedChunks (extended limits now message frame raw)).flatten := by
    rw [hreceived, ← flatten_orderedChunks_length hindices hall]
    exact concatTo_length _
  have heffect := finishMessage_effect digest limits
    (r.putMessage key (extended limits now message frame raw) raw.length) now key
    (mapM_orderedChunks hall)
  dsimp only
  generalize hout : finishMessage digest limits now
    (r.putMessage key (extended limits now message frame raw) raw.length) key
    (extended limits now message frame raw) = outcome at heffect ⊢
  cases heffect with
  | rejected =>
    left
    rw [ha.target.remove_putMessage]
  | completed payload serialized hutf8 hdigest hparse hroom =>
    right
    refine ⟨payload, serialized, hutf8.trans hwhole, hdigest, hparse, hroom, ?_⟩
    rw [Reassembler.completeMessage, ha.target.remove_putMessage]
    rfl

theorem Accounted.completeMessage (h : Accounted limits r)
    (hroom : r.completed.size < limits.maxCompleted) (done : CompletedMessage) :
    Accounted limits (r.completeMessage key done) := by
  have hremove := h.remove key
  refine ⟨hremove.ongoing, hremove.storedBytes, hremove.inflightBytes, hremove.inflight, ?_, ?_⟩
  · intro k m hk
    have hne : k ≠ key := by
      intro heq
      have hnone := Reassembler.remove_get? r key k
      rw [if_pos heq] at hnone
      rw [Reassembler.completeMessage] at hk
      rw [hnone] at hk
      cases hk
    have hnone := hremove.exclusive k m hk
    rw [Reassembler.remove_completed] at hnone
    rw [Reassembler.completeMessage]
    rw [OrderedMap.get?_set_ne _ _ hne, hnone]
  · rw [Reassembler.completeMessage]
    rw [size_set]
    split <;> omega

/-! ## Every request -/

theorem validFrame_index {value : Json} {bytes : Nat}
    (h : validFrame limits senderId value bytes = some frame) :
    frame.chunkIndex < frame.chunkCount := by
  simp only [validFrame, Option.bind_eq_bind, Option.bind_eq_some_iff, Option.pure_def,
    Option.some.injEq] at h
  obtain ⟨_, _, _, _, _, _, _, _, _, _, _, _, _, _, _, _, _, _, index, _, count, _, _, _, _, hlt,
    _, _, _, _, _, _, rfl⟩ := h
  simpa [guard] using hlt

theorem readFrame_index {arriving : Arriving}
    (h : readFrame limits arriving = some (frame, raw)) : frame.chunkIndex < frame.chunkCount := by
  simp only [readFrame, Option.bind_eq_some_iff] at h
  obtain ⟨frame', hframe, raw', _, hlen⟩ := h
  split at hlen
  · cases hlen
  · cases hlen
    exact validFrame_index hframe

theorem Accounted.chunkEffect (h : Accounted limits r)
    {outcome : DiscussionWireResult × Reassembler} (hindex : frame.chunkIndex < frame.chunkCount)
    (heffect : ChunkEffect digest limits now r senderId key frame raw outcome) :
    Accounted limits outcome.2 := by
  cases heffect with
  | kept => exact h
  | dropped => exact h.remove key
  | added message ha hmore => exact h.added hindex ha hmore
  | finished message ha hfull =>
    rcases ha.finish digest h hindex hfull with hout | hout
    · rw [hout]
      exact h.remove key
    · obtain ⟨payload, serialized, _, _, _, hroom, hout⟩ := hout
      rw [hout]
      exact h.completeMessage hroom _

theorem Accounted.serve (h : Accounted limits r) (timed : Timed) :
    Accounted limits (DiscussionWire.serve digest limits r timed).2 := by
  have heffect := serve_effect digest limits r timed
  generalize DiscussionWire.serve digest limits r timed = served at heffect ⊢
  cases heffect with
  | outright => exact h
  | unread => exact h.cleanup timed.now
  | chunk _ _ _ _ _ _ hread hchunk =>
    exact (h.cleanup timed.now).chunkEffect (readFrame_index hread) hchunk
  | clearedDiscussion senderId discussionId =>
    exact h.removeWhere fun message =>
      message.senderId == senderId && message.discussionId == some discussionId
  | clearedPartials => exact h.clearPartials
  | disposed => exact h.dispose

/-- A reassembler that has served the given requests, one after the other. -/
def served (digest : List UInt8 → JsString) (limits : Limits) (requests : List Timed) :
    Reassembler :=
  (exec (serve digest limits) (start {}) requests).state

theorem accounted_exec {c : Config Reassembler Timed (Option DiscussionWireResult)}
    (h : Accounted limits c.state) (requests : List Timed) :
    Accounted limits (exec (serve digest limits) c requests).state := by
  induction requests generalizing c with
  | nil => exact h
  | cons timed rest ih => exact ih (h.serve timed)

/-- **Accounting.** Whatever is asked, in whatever order and at whatever clock
readings: the byte count is the total of the stored chunks, both in-flight
limits are kept, every partial message holds between one and all but one of its
chunks, no message is partial and completed, and no more completed messages are
remembered than allowed. -/
theorem wire_accounting (digest : List UInt8 → JsString) (limits : Limits)
    (requests : List Timed) :
    let r := served digest limits requests
    r.inflightBytes = r.chunkTotal ∧
      r.inflightBytes ≤ limits.maxInflightBytes ∧
      r.inflightCount ≤ limits.maxInflightMessages ∧
      (∀ key message, r.partials.get? key = some message →
        1 ≤ message.chunks.size ∧ message.chunks.size ≤ message.chunkCount - 1 ∧
          message.chunks.keys.Nodup ∧ (∀ index ∈ message.chunks.keys, index < message.chunkCount) ∧
          message.chunkTotal ≤ limits.maxMessageBytes) ∧
      (∀ senderId messageId, ¬(r.partials.has (messageKey senderId messageId) = true ∧
        r.completed.has (messageKey senderId messageId) = true)) ∧
      r.completed.size ≤ limits.maxCompleted := by
  have h : Accounted limits (served digest limits requests) :=
    accounted_exec accounted_empty requests
  refine ⟨h.chunkTotal, h.inflightBytes, h.inflight, ?_, ?_, h.completed⟩
  · intro key message hget
    have hongoing := h.ongoing key message hget
    have hless := hongoing.unfinished
    refine ⟨hongoing.nonempty, by omega, message.chunks.nodup, ?_, hongoing.bounded⟩
    intro index hindex
    apply hongoing.indices
    rw [Option.isSome_iff_ne_none, ne_eq, get?_eq_none_iff, not_not]
    exact hindex
  · intro senderId messageId hboth
    obtain ⟨message, hmessage⟩ := Option.isSome_iff_exists.mp hboth.1
    have hnone := has_eq_false_iff.mpr (h.exclusive _ message hmessage)
    rw [hnone] at hboth
    cases hboth.2

end Accounting

end ClawMessenger.Ports.DiscussionWire
