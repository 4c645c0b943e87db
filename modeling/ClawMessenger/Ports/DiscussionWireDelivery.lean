import ClawMessenger.Ports.DiscussionWireEncode
import ClawMessenger.Verified.Machine

/-!
# Delivery of an encoded record

The frames of one record reach a reassembler in any order, any number of
times, mixed with anything that does not claim to be part of the same message
of the same sender.  `Progress r S` says what the reassembler knows of the
message after the chunks in `S` have arrived; `acceptFrame_own` is the step for
a frame of the message and `agree_deliver_foreign` the step for everything else.
-/

namespace ClawMessenger.Ports.DiscussionWire

open Verified Verified.JsString List
open Verified.Json (parse stringify)
open OrderedMap (get?_set get?_set_ne get?_set_self has has_eq_false_iff size_filter_le size_set)

/-! ## Removing partial messages -/

namespace Reassembler

theorem remove_get? (r : Reassembler) (key k : JsString) :
    (r.remove key).partials.get? k = if k = key then none else r.partials.get? k := by
  unfold remove
  cases hget : r.partials.get? key with
  | none =>
    by_cases hk : k = key
    · simp [hk, hget]
    · simp [hk]
  | some message =>
    by_cases hk : k = key
    · simp [hk]
    · simp [hk, OrderedMap.get?_erase_ne]

@[simp] theorem remove_completed (r : Reassembler) (key : JsString) :
    (r.remove key).completed = r.completed := by
  unfold remove
  split <;> rfl

@[simp] theorem remove_disposed (r : Reassembler) (key : JsString) :
    (r.remove key).disposed = r.disposed := by
  unfold remove
  split <;> rfl

private theorem foldl_remove (test : PartialMessage → Bool)
    (entries : List (JsString × PartialMessage)) (r : Reassembler) :
    let r' := entries.foldl (fun r entry => if test entry.2 then r.remove entry.1 else r) r
    r'.completed = r.completed ∧ r'.disposed = r.disposed ∧
      ∀ k, r'.partials.get? k =
        if entries.any (fun entry => entry.1 == k && test entry.2) then none
        else r.partials.get? k := by
  induction entries generalizing r with
  | nil => simp
  | cons entry rest ih =>
    dsimp only
    rw [foldl_cons]
    cases htest : test entry.2 with
    | true =>
      obtain ⟨hcompleted, hdisposed, hget⟩ := ih (r.remove entry.1)
      refine ⟨by simp [hcompleted], by simp [hdisposed], fun k => ?_⟩
      rw [if_pos rfl, hget k, remove_get?, any_cons, htest]
      by_cases hk : k = entry.1
      · simp [hk]
      · have hbeq : (entry.1 == k) = false := by simpa using Ne.symm hk
        rw [if_neg hk, hbeq, Bool.false_and, Bool.false_or]
    | false =>
      obtain ⟨hcompleted, hdisposed, hget⟩ := ih r
      refine ⟨hcompleted, hdisposed, fun k => ?_⟩
      rw [if_neg Bool.false_ne_true, hget k, any_cons, htest, Bool.and_false,
        Bool.false_or]

section

variable (r : Reassembler) (test : PartialMessage → Bool)
include r test

theorem removeWhere_get? (k : JsString) :
    (r.removeWhere test).partials.get? k = (r.partials.get? k).filter fun m => !test m := by
  rw [removeWhere, (foldl_remove test r.partials.entries r).2.2 k]
  cases hget : r.partials.get? k with
  | none => simp
  | some message =>
    have hmem : ∀ m, (k, m) ∈ r.partials.entries ↔ m = message := by
      intro m
      rw [← OrderedMap.get?_eq_some_iff, hget, Option.some.injEq, eq_comm]
    have hany : r.partials.entries.any (fun entry => entry.1 == k && test entry.2) =
        test message := by
      rw [Bool.eq_iff_iff, any_eq_true]
      constructor
      · rintro ⟨⟨k', m⟩, hentry, htest⟩
        rw [Bool.and_eq_true, beq_iff_eq] at htest
        obtain ⟨rfl, htest⟩ := htest
        rwa [← (hmem m).mp hentry]
      · intro htest
        exact ⟨(k, message), (hmem message).mpr rfl, by simpa using htest⟩
    rw [hany]
    cases htest : test message <;> simp [Option.filter, htest]

theorem removeWhere_completed :
    (r.removeWhere test).completed = r.completed :=
  (foldl_remove test r.partials.entries r).1

theorem removeWhere_disposed :
    (r.removeWhere test).disposed = r.disposed :=
  (foldl_remove test r.partials.entries r).2.1

end

/-- A partial message survives a cleanup exactly when it has not expired. -/
theorem cleanup_get?_partials (r : Reassembler) (now : Int) (k : JsString) :
    (r.cleanup now).partials.get? k =
      (r.partials.get? k).filter fun message => !decide (message.expiresAt ≤ now) :=
  removeWhere_get? r _ k

theorem cleanup_get?_completed (r : Reassembler) (now : Int) (k : JsString) :
    (r.cleanup now).completed.get? k =
      (r.completed.get? k).filter fun done => !decide (done.expiresAt ≤ now) := by
  unfold cleanup
  rw [OrderedMap.get?_filter, removeWhere_completed]

@[simp] theorem cleanup_disposed (r : Reassembler) (now : Int) :
    (r.cleanup now).disposed = r.disposed :=
  removeWhere_disposed r _

end Reassembler

/-! ## Keys -/

theorem messageKey_injective {s s' m m' : JsString} (h : messageKey s m = messageKey s' m') :
    s = s' ∧ m = m' := by
  have hdistinct : ∀ a b : JsString, (Json.arr [.str a, .str b]).Distinct := fun _ _ =>
    ⟨trivial, trivial, trivial⟩
  have heq := Json.stringify_injective (hdistinct s m) (hdistinct s' m') h
  simpa using heq

/-! ## What is known of one message -/

section Progress

variable (digest : List UInt8 → JsString) (payload : Json) (senderId : JsString)

/-- The key of the payload's message from a sender. -/
def ownKey : JsString := messageKey senderId (wireMessageId (digest (wholeBytes payload)))

/-- An open partial message holding exactly the chunks in `S`. -/
structure Collecting (r : Reassembler) (S : Finset Nat) (message : PartialMessage) : Prop where
  stored : r.partials.get? (ownKey digest payload senderId) = some message
  protocolVersion : message.protocolVersion = wireVersion payload
  sha256 : message.sha256 = digest (wholeBytes payload)
  chunkCount : message.chunkCount = frameCount payload
  discussionId : message.discussionId = payloadDiscussionId payload
  chunks : ∀ i, message.chunks.get? i =
    if i ∈ S then some (chunkBytes (wholeBytes payload) i) else none
  receivedBytes : message.receivedBytes = ∑ i ∈ S, (chunkBytes (wholeBytes payload) i).length

/-- What a reassembler knows of the message once the chunks in `S` arrived. -/
inductive Progress (r : Reassembler) (S : Finset Nat) : Prop where
  | fresh : S = ∅ →
      r.completed.get? (ownKey digest payload senderId) = none →
      r.partials.get? (ownKey digest payload senderId) = none → Progress r S
  | collecting (message : PartialMessage) : S ⊂ Finset.range (frameCount payload) →
      r.completed.get? (ownKey digest payload senderId) = none →
      Collecting digest payload senderId r S message → Progress r S
  | complete (done : CompletedMessage) : S = Finset.range (frameCount payload) →
      r.completed.get? (ownKey digest payload senderId) = some done →
      done.protocolVersion = wireVersion payload →
      r.partials.get? (ownKey digest payload senderId) = none → Progress r S

/-- The clock does not expire what is stored of the message. -/
structure Unexpired (r : Reassembler) (now : Int) : Prop where
  partials : ∀ message, r.partials.get? (ownKey digest payload senderId) = some message →
    now < message.expiresAt
  completed : ∀ done, r.completed.get? (ownKey digest payload senderId) = some done →
    now < done.expiresAt

/-- The capacities leave room for the message and a chunk of `bytes` bytes. -/
structure Room (r : Reassembler) (bytes : Nat) : Prop where
  inflight : r.partials.has (ownKey digest payload senderId) = false →
    r.completed.has (ownKey digest payload senderId) = false →
    r.partials.size < MAX_INFLIGHT_MESSAGES
  inflightBytes : r.completed.has (ownKey digest payload senderId) = false →
    r.storedBytes + bytes ≤ MAX_INFLIGHT_BYTES
  completed : r.completed.has (ownKey digest payload senderId) = false →
    r.completed.size < MAX_COMPLETED

/-- Two states know the same of the message. -/
structure Agree (r r' : Reassembler) : Prop where
  partials : r'.partials.get? (ownKey digest payload senderId) =
    r.partials.get? (ownKey digest payload senderId)
  completed : r'.completed.get? (ownKey digest payload senderId) =
    r.completed.get? (ownKey digest payload senderId)
  disposed : r'.disposed = r.disposed

variable {digest payload senderId}

theorem Agree.refl (r : Reassembler) : Agree digest payload senderId r r := ⟨rfl, rfl, rfl⟩

theorem Agree.trans {r₁ r₂ r₃ : Reassembler} (h₁ : Agree digest payload senderId r₁ r₂)
    (h₂ : Agree digest payload senderId r₂ r₃) : Agree digest payload senderId r₁ r₃ :=
  ⟨h₂.partials.trans h₁.partials, h₂.completed.trans h₁.completed, h₂.disposed.trans h₁.disposed⟩

variable {S : Finset Nat} {r : Reassembler} {now : Int} {key : JsString} {message : PartialMessage}
  {i : Nat}

variable {r' : Reassembler}

theorem Progress.of_agree (h : Progress digest payload senderId r S)
    (hagree : Agree digest payload senderId r r') :
    Progress digest payload senderId r' S := by
  cases h with
  | fresh hS hc hp => exact .fresh hS (hagree.completed.trans hc) (hagree.partials.trans hp)
  | collecting message hS hc hm =>
    exact .collecting message hS (hagree.completed.trans hc)
      { hm with stored := hagree.partials.trans hm.stored }
  | complete done hS hc hv hp =>
    exact .complete done hS (hagree.completed.trans hc) hv (hagree.partials.trans hp)

/-- Cleaning up before the stored state expires changes nothing of it. -/
theorem agree_cleanup (h : Unexpired digest payload senderId r now) :
    Agree digest payload senderId r (r.cleanup now) := by
  refine ⟨?_, ?_, Reassembler.cleanup_disposed r now⟩
  · rw [Reassembler.cleanup_get?_partials]
    cases hget : r.partials.get? (ownKey digest payload senderId) with
    | none => rfl
    | some message =>
      have := h.partials message hget
      simp [Option.filter, this]
  · rw [Reassembler.cleanup_get?_completed]
    cases hget : r.completed.get? (ownKey digest payload senderId) with
    | none => rfl
    | some done =>
      have := h.completed done hget
      simp [Option.filter, this]

/-! ## Foreign frames -/

theorem agree_remove (hkey : key ≠ ownKey digest payload senderId) :
    Agree digest payload senderId r (r.remove key) := by
  refine ⟨?_, by simp, by simp⟩
  rw [Reassembler.remove_get?, if_neg hkey.symm]

theorem agree_set (hkey : key ≠ ownKey digest payload senderId)
    (hpartials : r'.partials = r.partials.set key message)
    (hcompleted : r'.completed = r.completed) (hdisposed : r'.disposed = r.disposed) :
    Agree digest payload senderId r r' := by
  refine ⟨?_, by rw [hcompleted], hdisposed⟩
  rw [hpartials, get?_set_ne _ _ hkey.symm]

variable {sender : JsString} {frame : Frame} {raw : List UInt8}

theorem agree_openPartial (limits : Limits) (hkey : key ≠ ownKey digest payload senderId) :
    Agree digest payload senderId r (openPartial limits now r sender key frame raw).2 := by
  unfold openPartial
  split
  · split
    · exact Agree.refl r
    · exact agree_set hkey rfl rfl rfl
  · split
    · exact agree_remove hkey
    · exact Agree.refl r

theorem agree_finishMessage (limits : Limits) (hkey : key ≠ ownKey digest payload senderId) :
    Agree digest payload senderId r (finishMessage digest limits now r key message).2 := by
  have hremove : Agree digest payload senderId r (r.remove key) := agree_remove hkey
  unfold finishMessage
  split
  · exact Agree.refl r
  · dsimp only
    split
    · exact hremove
    · split
      · exact hremove
      · split
        · exact hremove
        · split
          · exact hremove
          · split
            · exact hremove
            · refine ⟨hremove.partials, ?_, hremove.disposed⟩
              rw [get?_set_ne _ _ hkey.symm, hremove.completed]

theorem agree_storeChunk {index : Nat} (limits : Limits)
    (hkey : key ≠ ownKey digest payload senderId) :
    Agree digest payload senderId r
      (storeChunk digest limits now r key message index raw).2 := by
  unfold storeChunk
  split
  · split
    · exact Agree.refl r
    · exact agree_remove hkey
  · split
    · exact agree_remove hkey
    · dsimp only
      split
      · exact agree_set hkey rfl rfl rfl
      · refine Agree.trans ?_ (agree_finishMessage limits hkey)
        exact agree_set hkey rfl rfl rfl

variable {value : Json}

theorem validFrame_messageId {limits : Limits} {bytes : Nat}
    (h : validFrame limits sender value bytes = some frame) :
    (value.field? (js "messageId")).bind Json.text? = some frame.messageId := by
  simp only [validFrame, Option.bind_eq_bind, Option.bind_eq_some_iff, Option.pure_def,
    Option.some.injEq] at h
  obtain ⟨_, _, _, _, _, _, _, _, _, _, _, _, _, _, messageId, hmessage, _, _, _, _, _, _, _, _, _,
    _, _, _, _, _, _, _, rfl⟩ := h
  exact Option.bind_eq_some_iff.mpr hmessage

/-- A frame of another message or another sender leaves the message alone. -/
theorem agree_acceptFrame {bytes : Nat} (limits : Limits)
    (hclock : Unexpired digest payload senderId r now)
    (hforeign : ¬(sender = senderId ∧ (value.field? (js "messageId")).bind Json.text? = some (wireMessageId (digest (wholeBytes payload))))) :
    Agree digest payload senderId r (acceptFrame digest limits now r sender value bytes).2 := by
  have hclean := agree_cleanup hclock
  unfold acceptFrame
  dsimp only
  split
  · exact hclean
  · next frame hframe =>
      have hkey : messageKey sender frame.messageId ≠ ownKey digest payload senderId := by
        intro heq
        obtain ⟨rfl, hmessage⟩ := messageKey_injective heq
        exact hforeign ⟨rfl, by rw [validFrame_messageId hframe, hmessage]⟩
      split
      · exact hclean
      · next raw hraw =>
          split
          · exact hclean
          · split
            · exact hclean
            · have hopen : Agree digest payload senderId (r.cleanup now)
                  (openPartial limits now (r.cleanup now) sender
                    (messageKey sender frame.messageId) frame raw).2 :=
                agree_openPartial limits hkey
              split
              · next r' heq =>
                  rw [heq] at hopen
                  exact hclean.trans hopen
              · next message r' heq =>
                  rw [heq] at hopen
                  exact hclean.trans (hopen.trans (agree_storeChunk limits hkey))

/-! ## Frames of the message -/

/-- What the caller is told when chunk `i` arrives after the chunks in `S`. -/
inductive Outcome (payload : Json) (S : Finset Nat) (i : Nat) : DiscussionWireResult → Prop where
  | incomplete : insert i S ≠ Finset.range (frameCount payload) →
      Outcome payload S i .incomplete
  | complete : S ≠ Finset.range (frameCount payload) →
      insert i S = Finset.range (frameCount payload) →
      Outcome payload S i (.complete payload (stringify payload))
  | replay : S = Finset.range (frameCount payload) → Outcome payload S i .replay

variable {result : DiscussionWireResult}

section

variable (h : Outcome payload S i result) (hS : S ≠ Finset.range (frameCount payload))
include h hS

theorem Outcome.incomplete_of (hinsert : insert i S ≠ Finset.range (frameCount payload)) :
    result = .incomplete := by
  cases h with
  | incomplete _ => rfl
  | complete _ heq => exact absurd heq hinsert
  | replay heq => exact absurd heq hS

theorem Outcome.complete_of (hinsert : insert i S = Finset.range (frameCount payload)) :
    result = .complete payload (stringify payload) := by
  cases h with
  | incomplete hne => exact absurd hinsert hne
  | complete _ _ => rfl
  | replay heq => exact absurd heq hS

end

theorem sum_chunkBytes_length (whole : List UInt8) :
    ∑ i ∈ Finset.range (chunkCount whole.length), (chunkBytes whole i).length = whole.length := by
  have hsum : ∀ m, ∑ i ∈ Finset.range m, (chunkBytes whole i).length =
      (((range m).map (chunkBytes whole)).flatten).length := by
    intro m
    induction m with
    | zero => rfl
    | succ m ih => simp [Finset.sum_range_succ, range_succ, ih]
  rw [hsum, flatten_all_chunkBytes]

theorem mapM_some {α β : Type} {f : α → Option β} {g : α → β} {l : List α}
    (h : ∀ a ∈ l, f a = some (g a)) : l.mapM f = some (l.map g) := by
  induction l with
  | nil => rfl
  | cons a l ih =>
    rw [mapM_cons, h a (mem_cons_self ..),
      ih fun b hb => h b (mem_cons_of_mem _ hb)]
    rfl

theorem concatTo_length (ordered : List (List UInt8)) :
    concatTo ordered ordered.flatten.length = ordered.flatten := by
  simp [concatTo]

theorem Collecting.chunks_size
    (h : Collecting digest payload senderId r S message) : message.chunks.size = S.card := by
  refine OrderedMap.size_eq_card fun i => ?_
  rw [h.chunks i]
  split
  · next hi => simp [hi]
  · next hi => simp [hi]

/-- With all chunks there the message completes. -/
theorem finishMessage_all (h : Chunked payload) (now : Int)
    (hm : Collecting digest payload senderId r (Finset.range (frameCount payload)) message)
    (hdone : r.completed.size < MAX_COMPLETED) :
    let result := finishMessage digest Limits.default now r (ownKey digest payload senderId) message
    result.1 = .complete payload (stringify payload) ∧
      Progress digest payload senderId result.2 (Finset.range (frameCount payload)) ∧
      result.2.disposed = r.disposed := by
  have hordered : (range message.chunkCount).mapM message.chunks.get? =
      some ((range (frameCount payload)).map (chunkBytes (wholeBytes payload))) := by
    rw [hm.chunkCount]
    refine mapM_some fun i hi => ?_
    rw [hm.chunks i, if_pos (by simpa using hi)]
  have hflat : ((range (frameCount payload)).map (chunkBytes (wholeBytes payload))).flatten =
      wholeBytes payload := flatten_all_chunkBytes (wholeBytes payload)
  have hbytes : message.receivedBytes = (wholeBytes payload).length :=
    hm.receivedBytes.trans (sum_chunkBytes_length (wholeBytes payload))
  have hconcat : concatTo ((range (frameCount payload)).map (chunkBytes (wholeBytes payload)))
      message.receivedBytes = wholeBytes payload := by
    have := concatTo_length ((range (frameCount payload)).map (chunkBytes (wholeBytes payload)))
    rw [hflat] at this
    rw [hbytes, this]
  have hcheck : ¬((wholeBytes payload).length > Limits.default.maxMessageBytes ∨
      digest (wholeBytes payload) ≠ message.sha256) := by
    rintro (hlen | hsha)
    · exact absurd h.upper (Nat.not_le.mpr hlen)
    · exact hsha hm.sha256.symm
  have hdecode : decodeUtf8 (wholeBytes payload) = some (stringify payload) :=
    Json.decodeUtf8_stringify payload
  have hparse : parse (stringify payload) = some payload := Json.parse_stringify payload h.distinct
  have hroom : ¬((!payload.isObject) = true ∨
      (r.remove (ownKey digest payload senderId)).completed.size ≥ Limits.default.maxCompleted) := by
    rw [h.object, Reassembler.remove_completed]
    rintro (hobj | hsize)
    · cases hobj
    · exact absurd hdone (Nat.not_lt.mpr hsize)
  have hversion : ¬(declaredVersion payload).nat? ≠ some message.protocolVersion := by
    rw [h.nat?_declaredVersion, hm.protocolVersion]
    exact fun hne => hne rfl
  dsimp only
  rw [finishMessage, hordered]
  dsimp only
  rw [hconcat, if_neg hcheck, hdecode]
  dsimp only
  rw [hparse]
  dsimp only
  rw [if_neg hroom, if_neg hversion]
  refine ⟨rfl, ?_, Reassembler.remove_disposed r _⟩
  refine .complete ⟨now + Limits.default.ttlMs, message.protocolVersion⟩ rfl
    (get?_set_self ..) hm.protocolVersion ?_
  dsimp only
  rw [Reassembler.remove_get?, if_pos rfl]

/-- A chunk of the message reaches its open partial message. -/
theorem storeChunk_own (h : Chunked payload) (hi : i < frameCount payload)
    (hS : S ⊂ Finset.range (frameCount payload))
    (hm : Collecting digest payload senderId r S message)
    (hcompleted : r.completed.get? (ownKey digest payload senderId) = none)
    (hbytes : r.storedBytes + (chunkBytes (wholeBytes payload) i).length ≤ MAX_INFLIGHT_BYTES)
    (hdone : r.completed.size < MAX_COMPLETED) :
    let result := storeChunk digest Limits.default now r (ownKey digest payload senderId) message i
      (chunkBytes (wholeBytes payload) i)
    Outcome payload S i result.1 ∧ Progress digest payload senderId result.2 (insert i S) ∧
      result.2.disposed = r.disposed := by
  dsimp only
  by_cases hmem : i ∈ S
  · -- A copy of a chunk that is already there.
    have hget : message.chunks.get? i = some (chunkBytes (wholeBytes payload) i) := by
      rw [hm.chunks i, if_pos hmem]
    have hinsert : insert i S = S := Finset.insert_eq_self.mpr hmem
    rw [storeChunk, hget]
    dsimp only
    rw [if_pos rfl, hinsert]
    exact ⟨.incomplete (by rw [hinsert]; exact hS.ne), .collecting message hS hcompleted hm, rfl⟩
  · have hget : message.chunks.get? i = none := by rw [hm.chunks i, if_neg hmem]
    have hsub : insert i S ⊆ Finset.range (frameCount payload) :=
      Finset.insert_subset (Finset.mem_range.mpr hi) hS.subset
    have hsum : ∑ j ∈ insert i S, (chunkBytes (wholeBytes payload) j).length =
        message.receivedBytes + (chunkBytes (wholeBytes payload) i).length := by
      rw [Finset.sum_insert hmem, hm.receivedBytes, Nat.add_comm]
    have htotal : message.receivedBytes + (chunkBytes (wholeBytes payload) i).length ≤
        MAX_MESSAGE_BYTES := by
      calc message.receivedBytes + (chunkBytes (wholeBytes payload) i).length
          = ∑ j ∈ insert i S, (chunkBytes (wholeBytes payload) j).length := hsum.symm
        _ ≤ ∑ j ∈ Finset.range (frameCount payload), (chunkBytes (wholeBytes payload) j).length :=
            Finset.sum_le_sum_of_subset hsub
        _ = (wholeBytes payload).length := sum_chunkBytes_length _
        _ ≤ MAX_MESSAGE_BYTES := h.upper
    have hcheck : ¬(message.receivedBytes + (chunkBytes (wholeBytes payload) i).length >
          Limits.default.maxMessageBytes ∨
        r.storedBytes + (chunkBytes (wholeBytes payload) i).length >
          Limits.default.maxInflightBytes) := by
      rintro (hlen | hlen)
      · exact absurd htotal (Nat.not_le.mpr hlen)
      · exact absurd hbytes (Nat.not_le.mpr hlen)
    rw [storeChunk, hget]
    dsimp only
    rw [if_neg hcheck]
    have hnextm : Collecting digest payload senderId
        (r.putMessage (ownKey digest payload senderId)
          (message.addChunk i (chunkBytes (wholeBytes payload) i) (now + Limits.default.ttlMs))
          (chunkBytes (wholeBytes payload) i).length)
        (insert i S)
        (message.addChunk i (chunkBytes (wholeBytes payload) i) (now + Limits.default.ttlMs)) := by
      refine ⟨get?_set_self .., hm.protocolVersion, hm.sha256, hm.chunkCount,
        hm.discussionId, fun j => ?_, hsum.symm⟩
      rw [PartialMessage.addChunk]
      dsimp only
      rw [get?_set, hm.chunks j]
      by_cases hj : j = i
      · simp [hj]
      · simp [hj]
    generalize hnext : message.addChunk i (chunkBytes (wholeBytes payload) i)
      (now + Limits.default.ttlMs) = next at hnextm ⊢
    have hcount : next.chunkCount = (Finset.range (frameCount payload)).card := by
      rw [hnextm.chunkCount, Finset.card_range]
    rw [hnextm.chunks_size, hcount]
    split
    · next hlt =>
        have hne : insert i S ≠ Finset.range (frameCount payload) := by
          intro heq
          rw [heq] at hlt
          exact absurd hlt (Nat.lt_irrefl _)
        refine ⟨.incomplete hne, ?_, rfl⟩
        exact .collecting next (Finset.ssubset_iff_subset_ne.mpr ⟨hsub, hne⟩) hcompleted hnextm
    · next hge =>
        have heq : insert i S = Finset.range (frameCount payload) :=
          Finset.eq_of_subset_of_card_le hsub (Nat.not_lt.mp hge)
        rw [heq] at hnextm ⊢
        obtain ⟨hresult, hprogress, hdisposed⟩ :=
          finishMessage_all h now hnextm hdone
        rw [hresult]
        exact ⟨.complete hS.ne heq, hprogress, hdisposed⟩

/-- The step for a frame of the message, `S` being what the cleanup leaves. -/
theorem acceptFrame_own (hd : HexDigest digest) (h : Chunked payload)
    (hsender : boundedId senderId = true) (hi : i < frameCount payload)
    (hclean : Progress digest payload senderId (r.cleanup now) S)
    (hroom : Room digest payload senderId (r.cleanup now)
      (chunkBytes (wholeBytes payload) i).length) :
    let result := acceptFrame digest Limits.default now r senderId (frameOf digest payload i)
      (byteLength (stringify (frameOf digest payload i)))
    Outcome payload S i result.1 ∧ Progress digest payload senderId result.2 (insert i S) ∧
      result.2.disposed = r.disposed := by
  have hraw : ¬((chunkBytes (wholeBytes payload) i).length < 1 ∨
      (chunkBytes (wholeBytes payload) i).length > RAW_CHUNK_BYTES) := by
    have hne : chunkBytes (wholeBytes payload) i ≠ [] := chunkBytes_ne_nil hi
    have hpos := length_pos_iff.mpr hne
    have hle := length_chunkBytes_le (wholeBytes payload) i
    omega
  have hdisposed := Reassembler.cleanup_disposed r now
  dsimp only
  rw [acceptFrame, validFrame_frameOf hd h hsender hi]
  dsimp only [frameFields]
  rw [canonicalDecode_frame hi]
  dsimp only
  rw [if_neg hraw]
  have hkey : messageKey senderId (wireMessageId (digest (wholeBytes payload))) =
      ownKey digest payload senderId := rfl
  rw [hkey]
  generalize r.cleanup now = r' at hclean hroom hdisposed ⊢
  rw [← hdisposed]
  cases hclean with
  | fresh hS hcompleted hpartials =>
    have hnoCompleted : r'.completed.has (ownKey digest payload senderId) = false := by
      rw [has_eq_false_iff]
      exact hcompleted
    have hslot := hroom.inflight (has_eq_false_iff.mpr hpartials) hnoCompleted
    have hbytes := hroom.inflightBytes hnoCompleted
    have hopen : ¬(r'.partials.size ≥ Limits.default.maxInflightMessages ∨
        r'.storedBytes + (chunkBytes (wholeBytes payload) i).length >
          Limits.default.maxInflightBytes) := by
      rintro (hsize | hlen)
      · exact absurd hslot (Nat.not_lt.mpr hsize)
      · exact absurd hbytes (Nat.not_le.mpr hlen)
    rw [hcompleted]
    dsimp only
    rw [openPartial, hpartials]
    dsimp only
    rw [if_neg hopen]
    subst hS
    have hssub : (∅ : Finset Nat) ⊂ Finset.range (frameCount payload) := by
      rw [Finset.empty_ssubset]
      exact ⟨i, Finset.mem_range.mpr hi⟩
    refine storeChunk_own h hi hssub ?_ hcompleted hbytes (hroom.completed hnoCompleted)
    exact ⟨get?_set_self .., rfl, rfl, rfl, rfl, fun j => by simp, by simp⟩
  | collecting message hS hcompleted hm =>
    have hnoCompleted : r'.completed.has (ownKey digest payload senderId) = false := by
      rw [has_eq_false_iff]
      exact hcompleted
    have hsame : ¬(message.sha256 ≠ digest (wholeBytes payload) ∨
        message.protocolVersion ≠ wireVersion payload ∨
        message.chunkCount ≠ frameCount payload ∨
        message.discussionId ≠ payloadDiscussionId payload) := by
      simp [hm.sha256, hm.protocolVersion, hm.chunkCount, hm.discussionId]
    rw [hcompleted]
    dsimp only
    rw [openPartial, hm.stored]
    dsimp only
    rw [if_neg hsame]
    exact storeChunk_own h hi hS hm hcompleted (hroom.inflightBytes hnoCompleted)
      (hroom.completed hnoCompleted)
  | complete done hS hcompleted hversion hpartials =>
    have hinsert : insert i S = S := by
      rw [Finset.insert_eq_self, hS]
      exact Finset.mem_range.mpr hi
    rw [hcompleted]
    dsimp only
    rw [if_pos hversion, hinsert]
    exact ⟨.replay hS, .complete done hS hcompleted hversion hpartials, rfl⟩

end Progress

/-! ## Calls -/

/-- One call of `accept` or `acceptSerialized`. -/
inductive Call where
  | object (senderId : JsString) (value : Json)
  | text (senderId : JsString) (serialized : JsString)

def Call.senderId : Call → JsString
  | object senderId _ => senderId
  | text senderId _ => senderId

/-- The frame a call reads. -/
def Call.value? : Call → Option Json
  | object _ value => parse (stringify value)
  | text _ serialized => parse serialized

/-- A call and the clock reading it makes. -/
structure Arrival where
  now : Int
  call : Call

/-- A reassembler with default limits takes one call. -/
def deliver (digest : List UInt8 → JsString) (r : Reassembler) (arrival : Arrival) :
    DiscussionWireResult × Reassembler :=
  match arrival.call with
  | .object senderId value => accept digest Limits.default arrival.now r senderId value
  | .text senderId serialized =>
    acceptSerialized digest Limits.default arrival.now r senderId serialized

/-- The call carries frame `i` of a sender, as text or already parsed. -/
inductive OwnFrame (frames : List JsString) (senderId : JsString) : Call → Nat → Prop where
  | text {frame : JsString} {i : Nat} : frames[i]? = some frame →
      OwnFrame frames senderId (.text senderId frame) i
  | object {frame : JsString} {value : Json} {i : Nat} : frames[i]? = some frame →
      parse frame = some value → OwnFrame frames senderId (.object senderId value) i

/-- The call carries nothing of a sender's message. -/
def Foreign (senderId messageId : JsString) (call : Call) : Prop :=
  ∀ value, call.value? = some value →
    ¬(call.senderId = senderId ∧ (value.field? (js "messageId")).bind Json.text? = some messageId)

section Calls

variable {digest : List UInt8 → JsString} {payload : Json} {senderId : JsString}

variable {i : Nat}

theorem frameTexts_getElem?_eq_some {frame : JsString}
    (h : (frameTexts digest payload)[i]? = some frame) :
    i < frameCount payload ∧ frame = stringify (frameOf digest payload i) := by
  have hi : i < frameCount payload := by
    have := (List.getElem?_eq_some_iff.mp h).1
    rwa [length_frameTexts] at this
  rw [frameTexts_getElem? hi, Option.some.injEq] at h
  exact ⟨hi, h.symm⟩

variable {call : Call}

theorem OwnFrame.spec (h : Chunked payload)
    (hown : OwnFrame (frameTexts digest payload) senderId call i) :
    i < frameCount payload ∧ call.senderId = senderId ∧
      call.value? = some (frameOf digest payload i) := by
  cases hown with
  | text hframe =>
    obtain ⟨hi, rfl⟩ := frameTexts_getElem?_eq_some hframe
    refine ⟨hi, rfl, ?_⟩
    rw [Call.value?, parse_frameOf h i]
  | object hframe hvalue =>
    obtain ⟨hi, rfl⟩ := frameTexts_getElem?_eq_some hframe
    rw [parse_frameOf h i, Option.some.injEq] at hvalue
    subst hvalue
    refine ⟨hi, rfl, ?_⟩
    rw [Call.value?, parse_frameOf h i]

theorem OwnFrame.index_unique (h : Chunked payload) {j : Nat}
    (hi : OwnFrame (frameTexts digest payload) senderId call i)
    (hj : OwnFrame (frameTexts digest payload) senderId call j) : i = j := by
  have hvalue : frameOf digest payload i = frameOf digest payload j := by
    rw [← Option.some.injEq, ← (hi.spec h).2.2, ← (hj.spec h).2.2]
  have hfield : ∀ k, (frameOf digest payload k).field? (js "chunkIndex") = some (Json.ofNat k) :=
    fun _ => rfl
  have hindex : Json.ofNat i = Json.ofNat j := by
    rw [← Option.some.injEq, ← hfield i, ← hfield j, hvalue]
  exact Decimal.ofNat_injective (Json.num.inj hindex)

theorem Foreign.not_own (h : Chunked payload)
    (hforeign : Foreign senderId (wireMessageId (digest (wholeBytes payload))) call) :
    ¬OwnFrame (frameTexts digest payload) senderId call i := by
  intro hown
  obtain ⟨_, hsender, hvalue⟩ := hown.spec h
  exact hforeign _ hvalue ⟨hsender, rfl⟩

variable {r : Reassembler} {arrival : Arrival}

/-- Either way of handing over a frame of the message ends in `acceptFrame`. -/
theorem deliver_own (hd : HexDigest digest) (h : Chunked payload) (hlive : r.disposed = false)
    (hown : OwnFrame (frameTexts digest payload) senderId arrival.call i) :
    deliver digest r arrival = acceptFrame digest Limits.default arrival.now r senderId
      (frameOf digest payload i) (byteLength (stringify (frameOf digest payload i))) := by
  obtain ⟨now, call⟩ := arrival
  have hwire : isWireFrame (frameOf digest payload i) = true := isWireFrame_frameValue ..
  cases hown with
  | text hframe =>
    obtain ⟨hi, rfl⟩ := frameTexts_getElem?_eq_some hframe
    have hle := frameOf_byteLength_le hd h hi
    have hfit : ¬byteLength (stringify (frameOf digest payload i)) > WIRE_BYTE_LIMIT := by
      rw [WIRE_BYTE_LIMIT]
      omega
    rw [deliver]
    dsimp only
    rw [acceptSerialized, if_neg hfit, parse_frameOf h i]
    dsimp only
    rw [hwire, hlive]
    rfl
  | object hframe hvalue =>
    obtain ⟨hi, rfl⟩ := frameTexts_getElem?_eq_some hframe
    rw [parse_frameOf h i, Option.some.injEq] at hvalue
    subst hvalue
    rw [deliver]
    dsimp only
    rw [accept, hwire, hlive]
    dsimp only
    rw [parse_frameOf h i]
    rfl

theorem agree_deliver_foreign (hclock : Unexpired digest payload senderId r arrival.now)
    (hforeign : Foreign senderId (wireMessageId (digest (wholeBytes payload))) arrival.call) :
    Agree digest payload senderId r (deliver digest r arrival).2 := by
  obtain ⟨now, call⟩ := arrival
  cases call with
  | object sender value =>
    rw [deliver]
    dsimp only
    rw [accept]
    split
    · exact Agree.refl r
    · split
      · exact Agree.refl r
      · dsimp only
        split
        · exact Agree.refl r
        · next snapshot hparse =>
            split
            · exact Agree.refl r
            · exact agree_acceptFrame Limits.default hclock (hforeign snapshot hparse)
  | text sender serialized =>
    rw [deliver]
    dsimp only
    rw [acceptSerialized]
    split
    · exact Agree.refl r
    · split
      · exact Agree.refl r
      · next value hparse =>
          split
          · exact Agree.refl r
          · split
            · exact Agree.refl r
            · exact agree_acceptFrame Limits.default hclock (hforeign value hparse)

end Calls

/-! ## Growth -/

/-- What a few calls with clock readings between `first` and `last` can have
stored, under default limits. -/
structure Within (r : Reassembler) (first last : Int) (messages chunks finished : Nat) : Prop where
  inflight : r.partials.size ≤ messages
  inflightBytes : r.storedBytes ≤ chunks * RAW_CHUNK_BYTES
  completed : r.completed.size ≤ finished
  partialExpires : ∀ key message, r.partials.get? key = some message →
    first + DEFAULT_TTL_MS ≤ message.expiresAt
  completedExpires : ∀ key done, r.completed.get? key = some done →
    first + DEFAULT_TTL_MS ≤ done.expiresAt ∧ done.expiresAt ≤ last + DEFAULT_TTL_MS

theorem within_empty (first last : Int) : Within {} first last 0 0 0 := by
  refine ⟨Nat.le_refl _, Nat.zero_le _, Nat.le_refl _, ?_, ?_⟩
  · intro key message hget
    cases hget
  · intro key done hget
    cases hget

section Growth

variable {first last : Int} {messages chunks finished : Nat}

variable {r : Reassembler} {digest : List UInt8 → JsString} {now : Int}

section

variable (h : Within r first last messages chunks finished)
include h

theorem Within.mono {messages' chunks' finished' : Nat} (hmessages : messages ≤ messages')
    (hchunks : chunks ≤ chunks') (hfinished : finished ≤ finished') :
    Within r first last messages' chunks' finished' :=
  ⟨Nat.le_trans h.inflight hmessages,
    Nat.le_trans h.inflightBytes (Nat.mul_le_mul_right _ hchunks),
    Nat.le_trans h.completed hfinished, h.partialExpires, h.completedExpires⟩

theorem Within.remove (key : JsString) :
    Within (r.remove key) first last messages chunks finished := by
  have hget := Reassembler.remove_get? r key
  unfold Reassembler.remove at hget ⊢
  cases hmessage : r.partials.get? key with
  | none => exact h
  | some message =>
    rw [hmessage] at hget
    refine ⟨Nat.le_trans (size_filter_le _ _) h.inflight,
      Nat.le_trans (Nat.sub_le _ _) h.inflightBytes, h.completed, fun k m hk => ?_,
      h.completedExpires⟩
    rw [hget k] at hk
    split at hk
    · cases hk
    · exact h.partialExpires k m hk

theorem Within.cleanup (now : Int) :
    Within (r.cleanup now) first last messages chunks finished := by
  have hremove : ∀ (entries : List (JsString × PartialMessage)) (r' : Reassembler),
      Within r' first last messages chunks finished →
      Within (entries.foldl (fun r entry =>
        if decide (entry.2.expiresAt ≤ now) then r.remove entry.1 else r) r')
        first last messages chunks finished := by
    intro entries
    induction entries with
    | nil => exact fun _ h' => h'
    | cons entry rest ih =>
      intro r' h'
      rw [foldl_cons]
      refine ih _ ?_
      split
      · exact h'.remove entry.1
      · exact h'
  have hpartials := hremove r.partials.entries r h
  refine ⟨hpartials.inflight, hpartials.inflightBytes,
    Nat.le_trans (size_filter_le _ _) hpartials.completed, hpartials.partialExpires,
    fun key done hget => ?_⟩
  rw [Reassembler.cleanup_get?_completed, Option.filter_eq_some_iff] at hget
  exact h.completedExpires key done hget.1

theorem Within.putMessage (key : JsString) {message : PartialMessage} {bytes chunks' : Nat}
    (hfirst : first + DEFAULT_TTL_MS ≤ message.expiresAt)
    (hbytes : r.storedBytes + bytes ≤ chunks' * RAW_CHUNK_BYTES) :
    Within (r.putMessage key message bytes) first last
      (if r.partials.has key then messages else messages + 1) chunks' finished := by
  have hsize : (r.partials.set key message).size ≤
      if r.partials.has key then messages else messages + 1 := by
    have := h.inflight
    rw [size_set]
    split <;> omega
  refine ⟨hsize, hbytes, h.completed, fun k m hk => ?_, h.completedExpires⟩
  rw [Reassembler.putMessage] at hk
  dsimp only at hk
  rw [get?_set] at hk
  split at hk
  · cases hk
    exact hfirst
  · exact h.partialExpires k m hk

theorem Within.finishMessage (hfirst : first ≤ now) (hlast : now ≤ last) (key : JsString)
    (message : PartialMessage) :
    Within (finishMessage digest Limits.default now r key message).2
      first last messages chunks (finished + 1) := by
  have hkept : Within r first last messages chunks (finished + 1) :=
    h.mono (Nat.le_refl _) (Nat.le_refl _) (Nat.le_succ _)
  have hremoved := hkept.remove key
  unfold DiscussionWire.finishMessage
  split
  · exact hkept
  · dsimp only
    split
    · exact hremoved
    · split
      · exact hremoved
      · split
        · exact hremoved
        · split
          · exact hremoved
          · split
            · exact hremoved
            · refine ⟨hremoved.inflight, hremoved.inflightBytes, ?_, hremoved.partialExpires,
                fun k done hk => ?_⟩
              · have := (h.remove key).completed
                dsimp only
                rw [size_set]
                split <;> omega
              · dsimp only at hk
                rw [get?_set] at hk
                split at hk
                · cases hk
                  have httl : (Limits.default.ttlMs : Int) = DEFAULT_TTL_MS := rfl
                  dsimp only
                  omega
                · exact hremoved.completedExpires k done hk

theorem Within.storeChunk (hfirst : first ≤ now) (hlast : now ≤ last) {key : JsString}
    (hkey : r.partials.has key = true) (message : PartialMessage) (index : Nat) {raw : List UInt8}
    (hraw : raw.length ≤ RAW_CHUNK_BYTES) :
    Within (storeChunk digest Limits.default now r key message index raw).2
      first last messages (chunks + 1) (finished + 1) := by
  have hkept : Within r first last messages (chunks + 1) (finished + 1) :=
    h.mono (Nat.le_refl _) (Nat.le_succ _) (Nat.le_succ _)
  have hbytes : r.storedBytes + raw.length ≤ (chunks + 1) * RAW_CHUNK_BYTES := by
    have := h.inflightBytes
    rw [Nat.add_mul]
    omega
  have hexpires : first + DEFAULT_TTL_MS ≤
      (message.addChunk index raw (now + Limits.default.ttlMs)).expiresAt := by
    have httl : (Limits.default.ttlMs : Int) = DEFAULT_TTL_MS := rfl
    rw [PartialMessage.addChunk]
    dsimp only
    omega
  have hput := h.putMessage key hexpires hbytes
  rw [if_pos hkey] at hput
  unfold DiscussionWire.storeChunk
  split
  · split
    · exact hkept
    · exact hkept.remove key
  · split
    · exact hkept.remove key
    · dsimp only
      split
      · exact hput.mono (Nat.le_refl _) (Nat.le_refl _) (Nat.le_succ _)
      · exact hput.finishMessage hfirst hlast key _

theorem Within.openPartial (hfirst : first ≤ now) (sender key : JsString) (frame : Frame)
    (raw : List UInt8) :
    let opened := openPartial Limits.default now r sender key frame raw
    Within opened.2 first last (messages + 1) chunks finished ∧
      (opened.1.isSome = true → opened.2.partials.has key = true) := by
  have hkept := h.mono (Nat.le_succ messages) (Nat.le_refl chunks) (Nat.le_refl finished)
  dsimp only
  unfold DiscussionWire.openPartial
  split
  · split
    · exact ⟨hkept, fun hsome => by cases hsome⟩
    · have hbytes : r.storedBytes + 0 ≤ chunks * RAW_CHUNK_BYTES := h.inflightBytes
      refine ⟨(h.putMessage key ?_ hbytes).mono ?_ (Nat.le_refl _) (Nat.le_refl _), fun _ => ?_⟩
      · have httl : (Limits.default.ttlMs : Int) = DEFAULT_TTL_MS := rfl
        dsimp only
        omega
      · split <;> omega
      · dsimp only [Reassembler.putMessage, has]
        rw [get?_set_self]
        rfl
  · next message hsome =>
      split
      · exact ⟨hkept.remove key, fun hsome => by cases hsome⟩
      · refine ⟨hkept, fun _ => ?_⟩
        rw [has, hsome]
        rfl

/-- One frame stores at most one more message, one more chunk and one more
completed entry. -/
theorem Within.acceptFrame (hfirst : first ≤ now) (hlast : now ≤ last) (sender : JsString)
    (value : Json) (bytes : Nat) :
    Within (acceptFrame digest Limits.default now r sender value bytes).2
      first last (messages + 1) (chunks + 1) (finished + 1) := by
  have hclean := h.cleanup now
  have hkept := hclean.mono (Nat.le_succ messages) (Nat.le_succ chunks) (Nat.le_succ finished)
  unfold DiscussionWire.acceptFrame
  dsimp only
  split
  · exact hkept
  · next frame _ =>
      split
      · exact hkept
      · next raw _ =>
          split
          · exact hkept
          · next hraw =>
              have hle : raw.length ≤ RAW_CHUNK_BYTES := by omega
              split
              · exact hkept
              · obtain ⟨hopened, hhas⟩ := hclean.openPartial hfirst sender
                  (messageKey sender frame.messageId) frame raw
                split
                · next r' heq =>
                    rw [heq] at hopened
                    exact hopened.mono (Nat.le_refl _) (Nat.le_succ _) (Nat.le_succ _)
                · next message r' heq =>
                    rw [heq] at hopened hhas
                    exact hopened.storeChunk hfirst hlast (hhas rfl) message frame.chunkIndex hle

theorem Within.deliver {arrival : Arrival} (hfirst : first ≤ arrival.now)
    (hlast : arrival.now ≤ last) :
    Within (deliver digest r arrival).2 first last (messages + 1) (chunks + 1) (finished + 1) := by
  have hkept := h.mono (Nat.le_succ messages) (Nat.le_succ chunks) (Nat.le_succ finished)
  obtain ⟨now, call⟩ := arrival
  cases call with
  | object sender value =>
    rw [DiscussionWire.deliver]
    dsimp only
    rw [accept]
    split
    · exact hkept
    · split
      · exact hkept
      · dsimp only
        split
        · exact hkept
        · split
          · exact hkept
          · exact h.acceptFrame hfirst hlast _ _ _
  | text sender serialized =>
    rw [DiscussionWire.deliver]
    dsimp only
    rw [acceptSerialized]
    split
    · exact hkept
    · split
      · exact hkept
      · split
        · exact hkept
        · split
          · exact hkept
          · exact h.acceptFrame hfirst hlast _ _ _

end

end Growth

end ClawMessenger.Ports.DiscussionWire
