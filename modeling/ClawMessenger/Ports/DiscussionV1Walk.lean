import ClawMessenger.Ports.DiscussionV1

/-!
# The walk of a token

A token that the parser accepts is `Valid`, and a valid token is read back from its JSON
value.  The next token of a valid one is valid again, so the builder never throws, and the
walk visits the speakers as `turnsFrom` lists them.

## Main results

* `parse_toJson`: the parser on the value of a valid token.
* `walk_visits`: the walk from any valid token that passes the turn.
* `token_walk`: the same for a token that was received.
-/

namespace ClawMessenger.Ports.DiscussionV1

open Verified Verified.JsString Verified.Json List
open RouterOutput (utf8Prefix byteLength_utf8Prefix)
open Option (bind_eq_some_iff filter_eq_some_iff none_or)

/-! ## Valid tokens -/

structure DiscussionV1Payload.Valid (p : DiscussionV1Payload) (tokenAction : DiscussionV1Action) : Prop where
  groupId : boundedText p.groupId 128 = true
  currentSpeaker : boundedText p.currentSpeaker 128 = true
  originatorUser : boundedText p.originatorUser 128 = true
  originatorMsgUid : boundedText p.originatorMsgUid 128 = true
  originatorText : 0 < p.originatorText.length ∧ byteLength p.originatorText ≤ 100000
  round : 1 ≤ p.round ∧ p.round ≤ 100
  maxRounds : 1 ≤ p.maxRounds ∧ p.maxRounds ≤ 100
  startedAt : 1 ≤ p.startedAt ∧ p.startedAt ≤ MAX_SAFE_INTEGER
  members : ∀ member ∈ p.turnOrder, boundedText member 128 = true
  turnOrder : 1 ≤ p.turnOrder.length ∧ p.turnOrder.length ≤ 64 ∧ p.turnOrder.Nodup
  currentSpeakerName : ∀ s, p.currentSpeakerName = some s → 0 < s.length ∧ byteLength s ≤ 500
  lastSpeakerResponse : ∀ s, p.lastSpeakerResponse = some s → byteLength s ≤ 100000
  nextSpeaker : ∀ s, p.nextSpeaker = some s → boundedText s 128 = true
  agrees : payloadAgrees p tokenAction = true

structure DiscussionV1Message.Valid (m : DiscussionV1Message) : Prop where
  discussionId : boundedText m.discussionId 128 = true
  timestamp : m.timestamp ≤ MAX_SAFE_INTEGER
  payload : m.payload.Valid m.action

section Reading

variable {α : Type} {raw : Json} {key : JsString}

variable {read : Json → Option α} {p : α → Bool}

theorem filter_of_required {a : α} (h : required raw key (fun v => (read v).filter p) = some a) :
    p a = true := by
  obtain ⟨v, _, hv⟩ := bind_eq_some_iff.mp h
  exact (filter_eq_some_iff.mp hv).2

theorem filter_of_optionalField {value : Option α}
    (h : optionalField raw key (fun v => (read v).filter p) = some value) :
    ∀ a, value = some a → p a = true := by
  unfold optionalField at h
  split at h
  · cases h
    intro a ha
    cases ha
  · obtain ⟨b, hb, rfl⟩ := Option.map_eq_some_iff.mp h
    intro a ha
    cases ha
    exact (filter_eq_some_iff.mp hb).2

variable {s : JsString}

theorem identifier_of_required (h : required raw key boundedIdentifier = some s) :
    boundedText s 128 = true :=
  filter_of_required (p := fun s => boundedText s 128) h

theorem text_of_required {maxBytes : Nat}
    (h : required raw key (boundedBytes maxBytes false) = some s) :
    0 < s.length ∧ byteLength s ≤ maxBytes := by
  have hcheck := filter_of_required h
  simpa using hcheck

theorem integer_of_required {min max n : Nat} (h : required raw key (safeInteger min max) = some n) :
    min ≤ n ∧ n ≤ max := by
  have hcheck := filter_of_required h
  simpa using hcheck

variable {order : List JsString}

theorem identifiers_of_mapM {values : List Json} (h : values.mapM boundedIdentifier = some order) :
    ∀ member ∈ order, boundedText member 128 = true := by
  induction values generalizing order with
  | nil =>
    cases h
    intro member hmember
    cases hmember
  | cons v rest ih =>
    rw [mapM_cons] at h
    obtain ⟨s, hs, h⟩ := bind_eq_some_iff.mp h
    obtain ⟨ss, hss, h⟩ := bind_eq_some_iff.mp h
    cases h
    intro member hmember
    rcases mem_cons.mp hmember with rfl | hrest
    · exact (filter_eq_some_iff.mp hs).2
    · exact ih hss member hrest

theorem turnOrder_of_required (h : required raw key turnOrder = some order) :
    (∀ member ∈ order, boundedText member 128 = true) ∧ 1 ≤ order.length ∧ order.length ≤ 64 ∧ order.Nodup := by
  obtain ⟨v, _, hv⟩ := bind_eq_some_iff.mp h
  cases v with
  | arr members =>
    obtain ⟨hmap, hcheck⟩ := filter_eq_some_iff.mp hv
    exact ⟨identifiers_of_mapM hmap, of_decide_eq_true hcheck⟩
  | null | bool b | num n | str s | obj fields => cases hv

end Reading

variable {tokenAction : DiscussionV1Action} {p : DiscussionV1Payload}

theorem valid_of_parsePayload {raw : Json} (h : parsePayload raw tokenAction = some p) :
    p.Valid tokenAction := by
  unfold parsePayload at h
  split at h
  · obtain ⟨h, hagrees⟩ := filter_eq_some_iff.mp h
    obtain ⟨groupId, hgroup, h⟩ := bind_eq_some_iff.mp h
    obtain ⟨currentSpeaker, hspeaker, h⟩ := bind_eq_some_iff.mp h
    obtain ⟨originatorUser, huser, h⟩ := bind_eq_some_iff.mp h
    obtain ⟨originatorMsgUid, huid, h⟩ := bind_eq_some_iff.mp h
    obtain ⟨originatorText, htext, h⟩ := bind_eq_some_iff.mp h
    obtain ⟨round, hround, h⟩ := bind_eq_some_iff.mp h
    obtain ⟨maxRounds, hmax, h⟩ := bind_eq_some_iff.mp h
    obtain ⟨startedAt, hstarted, h⟩ := bind_eq_some_iff.mp h
    obtain ⟨mentionOrdered, _, h⟩ := bind_eq_some_iff.mp h
    obtain ⟨order, horder, h⟩ := bind_eq_some_iff.mp h
    obtain ⟨name, hname, h⟩ := bind_eq_some_iff.mp h
    obtain ⟨response, hresponse, h⟩ := bind_eq_some_iff.mp h
    obtain ⟨next, hnext, h⟩ := bind_eq_some_iff.mp h
    cases h
    obtain ⟨hmembers, hlength⟩ := turnOrder_of_required horder
    exact {
      groupId := identifier_of_required hgroup
      currentSpeaker := identifier_of_required hspeaker
      originatorUser := identifier_of_required huser
      originatorMsgUid := identifier_of_required huid
      originatorText := text_of_required htext
      round := integer_of_required hround
      maxRounds := integer_of_required hmax
      startedAt := integer_of_required hstarted
      members := hmembers
      turnOrder := hlength
      currentSpeakerName := by
        intro s hs
        simpa using filter_of_optionalField hname s hs
      lastSpeakerResponse := by
        intro s hs
        simpa using filter_of_optionalField hresponse s hs
      nextSpeaker := filter_of_optionalField hnext
      agrees := hagrees }
  · cases h

variable {m : DiscussionV1Message}

theorem valid_of_parse {raw : Json} (h : parseDiscussionV1 raw = some m) : m.Valid := by
  unfold parseDiscussionV1 at h
  split at h
  · obtain ⟨discussionId, hid, h⟩ := bind_eq_some_iff.mp h
    obtain ⟨tokenAction, _, h⟩ := bind_eq_some_iff.mp h
    obtain ⟨timestamp, htime, h⟩ := bind_eq_some_iff.mp h
    obtain ⟨payload, hpayload, h⟩ := bind_eq_some_iff.mp h
    cases h
    obtain ⟨v, _, hv⟩ := bind_eq_some_iff.mp hpayload
    exact ⟨identifier_of_required hid, (integer_of_required htime).2, valid_of_parsePayload hv⟩
  · cases h

/-! ## Reading back -/

section Fields

variable {α : Type} {raw : Json} {key other : JsString} {v : Json} {fields : List (JsString × Json)}
  {value : Option JsString}

theorem lookup_optional : (optional key value).lookup key = value.map .str := by
  cases value with
  | none => rfl
  | some s => simp [optional]

theorem lookup_optional_ne (h : (other == key) = false) : (optional key value).lookup other = none := by
  cases value with
  | none => rfl
  | some s => simp [optional, lookup_cons, h]

theorem lookup_self : ((key, v) :: fields).lookup key = some v := by
  rw [lookup_cons, beq_self_eq_true]

theorem lookup_ne (h : (other == key) = false) : ((key, v) :: fields).lookup other = fields.lookup other := by
  rw [lookup_cons, h]

theorem required_of {check : Json → Option α} {a : α} (hfield : raw.field? key = some v) (hcheck : check v = some a) :
    required raw key check = some a := by
  unfold required
  rw [hfield]
  exact hcheck

theorem optionalField_of {check : Json → Option JsString} (hfield : raw.field? key = value.map .str)
    (hcheck : ∀ s, value = some s → check (.str s) = some s) : optionalField raw key check = some value := by
  unfold optionalField
  rw [hfield]
  cases value with
  | none => rfl
  | some s =>
    show (check (.str s)).map some = _
    rw [hcheck s rfl]
    rfl

end Fields

variable {s : JsString}

theorem boundedIdentifier_str (h : boundedText s 128 = true) :
    boundedIdentifier (.str s) = some s :=
  filter_eq_some_iff.mpr ⟨rfl, h⟩

theorem boundedBytes_str {maxBytes : Nat} {allowEmpty : Bool}
    (hempty : allowEmpty = true ∨ 0 < s.length) (h : byteLength s ≤ maxBytes) :
    boundedBytes maxBytes allowEmpty (.str s) = some s := by
  apply filter_eq_some_iff.mpr
  refine ⟨rfl, ?_⟩
  rw [Bool.and_eq_true, Bool.or_eq_true, decide_eq_true_eq, decide_eq_true_eq]
  exact ⟨hempty, h⟩

theorem safeInteger_ofNat {min max n : Nat} (hmin : min ≤ n) (hmax : n ≤ max) (hsafe : n ≤ MAX_SAFE_INTEGER) :
    safeInteger min max (ofNat n) = some n := by
  apply filter_eq_some_iff.mpr
  refine ⟨?_, decide_eq_true ⟨hmin, hmax⟩⟩
  exact Decimal.safeNat?_ofNat hsafe

variable {order : List JsString}

theorem turnOrder_arr (hmembers : ∀ member ∈ order, boundedText member 128 = true)
    (hlength : 1 ≤ order.length ∧ order.length ≤ 64 ∧ order.Nodup) :
    turnOrder (.arr (order.map .str)) = some order := by
  have hall : (order.map str).mapM boundedIdentifier = some order := by
    clear hlength
    induction order with
    | nil => rfl
    | cons member rest ih =>
      have hrest := ih fun other hother => hmembers other (mem_cons_of_mem _ hother)
      rw [map_cons, mapM_cons, boundedIdentifier_str (hmembers member mem_cons_self), hrest]
      rfl
  exact filter_eq_some_iff.mpr ⟨hall, decide_eq_true hlength⟩

theorem action_text (a : DiscussionV1Action) : action (.str a.text) = some a := by
  cases a <;> decide

theorem keys_optional {key : JsString} {value : Option JsString} :
    ((optional key value).map Prod.fst).Sublist [key] := by
  cases value with
  | none => exact nil_sublist _
  | some s => exact Sublist.refl _

/-- The keys that a payload may have, in the order of its value. -/
def payloadKeys : List JsString :=
  [js "group_id", js "turn_order", js "current_speaker"] ++ [js "current_speaker_name"] ++ [js "next_speaker"] ++
    [js "round", js "max_rounds", js "originator_user", js "originator_text", js "originator_msg_uid", js "started_at",
      js "mention_ordered"] ++ [js "last_speaker_response"]

theorem payload_keys_sublist (p : DiscussionV1Payload) : p.toJson.keys.Sublist payloadKeys := by
  unfold DiscussionV1Payload.toJson payloadKeys
  dsimp only [Json.keys]
  rw [map_append, map_append, map_append, map_append]
  exact ((((List.Sublist.refl _).append keys_optional).append keys_optional).append (List.Sublist.refl _)).append
    keys_optional

theorem field?_obj (fields : List (JsString × Json)) (key : JsString) :
    (obj fields).field? key = fields.lookup key := rfl

theorem payload_required (p : DiscussionV1Payload) :
    p.toJson.field? (js "group_id") = some (.str p.groupId) ∧
      p.toJson.field? (js "turn_order") = some (.arr (p.turnOrder.map .str)) ∧
      p.toJson.field? (js "current_speaker") = some (.str p.currentSpeaker) ∧
      p.toJson.field? (js "round") = some (ofNat p.round) ∧
      p.toJson.field? (js "max_rounds") = some (ofNat p.maxRounds) ∧
      p.toJson.field? (js "originator_user") = some (.str p.originatorUser) ∧
      p.toJson.field? (js "originator_text") = some (.str p.originatorText) ∧
      p.toJson.field? (js "originator_msg_uid") = some (.str p.originatorMsgUid) ∧
      p.toJson.field? (js "started_at") = some (ofNat p.startedAt) ∧
      p.toJson.field? (js "mention_ordered") = some (.bool p.mentionOrdered) := by
  refine ⟨?_, ?_, ?_, ?_, ?_, ?_, ?_, ?_, ?_, ?_⟩ <;>
    simp (disch := decide +kernel) only [DiscussionV1Payload.toJson, field?_obj, lookup_append, lookup_ne, lookup_self,
      lookup_optional_ne, lookup_nil, none_or, Option.some_or]

theorem payload_optional (p : DiscussionV1Payload) :
    p.toJson.field? (js "current_speaker_name") = p.currentSpeakerName.map .str ∧
      p.toJson.field? (js "next_speaker") = p.nextSpeaker.map .str ∧
      p.toJson.field? (js "last_speaker_response") = p.lastSpeakerResponse.map .str := by
  refine ⟨?_, ?_, ?_⟩ <;>
    simp (disch := decide +kernel) only [DiscussionV1Payload.toJson, field?_obj, lookup_append, lookup_ne, lookup_optional,
      lookup_optional_ne, lookup_nil, none_or, Option.or_none]

theorem payload_keys (p : DiscussionV1Payload) :
    p.toJson.exactKeys payloadRequiredKeys payloadOptionalKeys = true := by
  obtain ⟨hgroup, horder, hspeaker, hround, hmax, huser, htext, huid, hstarted, hmention⟩ := payload_required p
  unfold exactKeys
  rw [Bool.and_eq_true]
  constructor
  · unfold payloadRequiredKeys hasOwn
    simp only [all_cons, all_nil, hgroup, horder, hspeaker, hround, hmax, huser, htext, huid, hstarted, hmention,
      Option.isSome_some, Bool.and_self]
  · rw [all_eq_true]
    intro key hkey
    have hknown : ∀ key ∈ payloadKeys,
        (payloadRequiredKeys.contains key || payloadOptionalKeys.contains key) = true := by
      decide +kernel
    exact hknown key ((payload_keys_sublist p).subset hkey)

theorem parsePayload_toJson (h : p.Valid tokenAction) :
    parsePayload p.toJson tokenAction = some p := by
  obtain ⟨hgroup, horder, hspeaker, hround, hmax, huser, htext, huid, hstarted, hmention⟩ := payload_required p
  obtain ⟨hname, hnext, hresponse⟩ := payload_optional p
  have hsafe : ∀ n : Nat, n ≤ 100 → n ≤ MAX_SAFE_INTEGER := by
    intro n hn
    exact le_trans hn (by decide)
  have hfields : payloadFields p.toJson = some p := by
    unfold payloadFields
    rw [required_of hgroup (boundedIdentifier_str h.groupId), required_of hspeaker (boundedIdentifier_str h.currentSpeaker),
      required_of huser (boundedIdentifier_str h.originatorUser), required_of huid (boundedIdentifier_str h.originatorMsgUid),
      required_of htext (boundedBytes_str (.inr h.originatorText.1) h.originatorText.2),
      required_of hround (safeInteger_ofNat h.round.1 h.round.2 (hsafe _ h.round.2)),
      required_of hmax (safeInteger_ofNat h.maxRounds.1 h.maxRounds.2 (hsafe _ h.maxRounds.2)),
      required_of hstarted (safeInteger_ofNat h.startedAt.1 h.startedAt.2 h.startedAt.2),
      required_of hmention (show boolean (.bool p.mentionOrdered) = some p.mentionOrdered from rfl), required_of horder (turnOrder_arr h.members h.turnOrder),
      optionalField_of hname fun s hs => boundedBytes_str (.inr (h.currentSpeakerName s hs).1) (h.currentSpeakerName s hs).2,
      optionalField_of hresponse fun s hs => boundedBytes_str (.inl rfl) (h.lastSpeakerResponse s hs),
      optionalField_of hnext fun s hs => boundedIdentifier_str (h.nextSpeaker s hs)]
    rfl
  unfold parsePayload
  rw [if_pos (by rw [payload_keys]; rfl)]
  exact filter_eq_some_iff.mpr ⟨hfields, h.agrees⟩

/-- The parser on the value of a valid token. -/
theorem parse_toJson (h : m.Valid) : parseDiscussionV1 m.toJson = some m := by
  have hid : m.toJson.field? (js "discussion_id") = some (.str m.discussionId) := rfl
  have haction : m.toJson.field? (js "action") = some (.str m.action.text) := rfl
  have htime : m.toJson.field? (js "timestamp") = some (ofNat m.timestamp) := rfl
  have hpayload : m.toJson.field? (js "payload") = some m.payload.toJson := rfl
  unfold parseDiscussionV1
  rw [if_pos]
  · rw [required_of hid (boundedIdentifier_str h.discussionId), required_of haction (action_text m.action),
      required_of htime (safeInteger_ofNat (Nat.zero_le _) h.timestamp h.timestamp)]
    show (required m.toJson (js "payload") fun payload => parsePayload payload m.action).bind _ = _
    rw [required_of hpayload (parsePayload_toJson h.payload)]
    rfl
  · rfl

/-! ## The next token -/

theorem time_le (now : Json) : time now ≤ MAX_SAFE_INTEGER := by
  unfold time
  cases hnow : now.nat? with
  | none => exact Nat.zero_le _
  | some n =>
    cases now with
    | num d => exact of_decide_eq_true (filter_eq_some_iff.mp hnow).2
    | null | bool b | str s | arr items | obj fields => cases hnow

/-- The token that passes the turn on. -/
def passed (m : DiscussionV1Message) (turn : Turn) (speaker : JsString) (round : Nat) : DiscussionV1Message where
  discussionId := m.discussionId
  action := .passTurn
  payload := { m.payload with
    lastSpeakerResponse := some (utf8Prefix turn.response 100000)
    currentSpeaker := speaker
    nextSpeaker := some speaker
    round := round }
  timestamp := time turn.now

/-- The token after the last turn. -/
def ended (m : DiscussionV1Message) (turn : Turn) : DiscussionV1Message where
  discussionId := m.discussionId
  action := .endDiscussion
  payload := { m.payload with lastSpeakerResponse := some (utf8Prefix turn.response 100000), nextSpeaker := none }
  timestamp := time turn.now

section Next

variable {m : DiscussionV1Message}

theorem response_fits (turn : Turn) :
    ∀ s, some (utf8Prefix turn.response 100000) = some s → byteLength s ≤ 100000 := by
  intro s hs
  cases hs
  exact byteLength_utf8Prefix _ _

theorem DiscussionV1Message.Valid.passed (h : m.Valid) (turn : Turn) {speaker : JsString} {round : Nat}
    (hspeaker : speaker ∈ m.payload.turnOrder) (hround : 1 ≤ round ∧ round ≤ m.payload.maxRounds) :
    (passed m turn speaker round).Valid := by
  refine ⟨h.discussionId, time_le _, ?_⟩
  have hmax : round ≤ 100 := le_trans hround.2 h.payload.maxRounds.2
  refine { h.payload with
    currentSpeaker := h.payload.members speaker hspeaker
    round := ⟨hround.1, hmax⟩
    lastSpeakerResponse := response_fits turn
    nextSpeaker := ?_
    agrees := ?_ }
  · intro s hs
    cases hs
    exact h.payload.members speaker hspeaker
  · have hmem : m.payload.turnOrder.contains speaker = true := contains_iff_mem.mpr hspeaker
    have hle : decide (round ≤ m.payload.maxRounds) = true := decide_eq_true hround.2
    show (decide (round ≤ m.payload.maxRounds) && m.payload.turnOrder.contains speaker &&
      m.payload.turnOrder.contains speaker && true && true) = true
    rw [hmem, hle]
    rfl

theorem DiscussionV1Message.Valid.ended (h : m.Valid) (turn : Turn) : (ended m turn).Valid := by
  refine ⟨h.discussionId, time_le _, ?_⟩
  refine { h.payload with
    lastSpeakerResponse := response_fits turn
    nextSpeaker := fun s hs => by cases hs
    agrees := ?_ }
  have hagrees := h.payload.agrees
  unfold payloadAgrees at hagrees
  rw [Bool.and_eq_true, Bool.and_eq_true, Bool.and_eq_true, Bool.and_eq_true] at hagrees
  obtain ⟨⟨⟨⟨hround, hspeaker⟩, _⟩, _⟩, _⟩ := hagrees
  show (decide (m.payload.round ≤ m.payload.maxRounds) && m.payload.turnOrder.contains m.payload.currentSpeaker &&
    true && true && true) = true
  rw [hround, hspeaker]
  rfl

/-- The current speaker has a place in the order. -/
theorem DiscussionV1Message.Valid.place (h : m.Valid) :
    m.payload.turnOrder.idxOf m.payload.currentSpeaker < m.payload.turnOrder.length := by
  have hagrees := h.payload.agrees
  unfold payloadAgrees at hagrees
  rw [Bool.and_eq_true, Bool.and_eq_true, Bool.and_eq_true, Bool.and_eq_true] at hagrees
  exact idxOf_lt_length_iff.mpr (contains_iff_mem.mp hagrees.1.1.1.2)

theorem DiscussionV1Message.Valid.round_le (h : m.Valid) : m.payload.round ≤ m.payload.maxRounds := by
  have hagrees := h.payload.agrees
  unfold payloadAgrees at hagrees
  rw [Bool.and_eq_true, Bool.and_eq_true, Bool.and_eq_true, Bool.and_eq_true] at hagrees
  exact of_decide_eq_true hagrees.1.1.1.1

/-- What the current speaker of a valid token sends. -/
theorem sendV1Advance_valid (h : m.Valid) (turn : Turn) {i : Nat}
    (hi : m.payload.turnOrder[i]? = some m.payload.currentSpeaker) :
    sendV1Advance m.payload.currentSpeaker m turn =
      match m.payload.turnOrder[i + 1]? with
      | some next => some (passed m turn next m.payload.round)
      | none =>
        if m.payload.round < m.payload.maxRounds then
          some (passed m turn (m.payload.turnOrder.headD []) (m.payload.round + 1))
        else some (ended m turn) := by
  obtain ⟨hlt, hget⟩ := List.getElem?_eq_some_iff.mp hi
  have hindex : m.payload.turnOrder.idxOf m.payload.currentSpeaker = i := by
    rw [← hget]
    exact h.payload.turnOrder.2.2.idxOf_getElem i hlt
  have hvalid : ¬ (m.payload.turnOrder.length ≤ i ∨ m.payload.round < 1 ∨ m.payload.maxRounds < 1) := by
    have hround := h.payload.round.1
    have hmax := h.payload.maxRounds.1
    omega
  have hstep : (if turn.timeout then advanceAfterTimeout m.payload m.payload.currentSpeaker
      else advanceAfterCompleted m.payload m.payload.currentSpeaker) = advance m.payload m.payload.currentSpeaker := by
    split <;> rfl
  have hmember : ∀ j s, m.payload.turnOrder[j]? = some s → s ∈ m.payload.turnOrder :=
    fun j s hs => List.mem_of_getElem? hs
  have hadvance : advance m.payload m.payload.currentSpeaker =
      match m.payload.turnOrder[i + 1]? with
      | some next => .passTurn next m.payload.round
      | none =>
        if m.payload.round < m.payload.maxRounds then
          .passTurn (m.payload.turnOrder.headD []) (m.payload.round + 1)
        else .endDiscussion m.payload.round := by
    unfold advance
    rw [hindex]
    exact if_neg hvalid
  unfold sendV1Advance
  rw [hstep, hadvance]
  cases hnext : m.payload.turnOrder[i + 1]? with
  | some next => exact parse_toJson (h.passed turn (hmember _ _ hnext) ⟨h.payload.round.1, h.round_le⟩)
  | none =>
    by_cases hmore : m.payload.round < m.payload.maxRounds
    · dsimp only
      rw [if_pos hmore, if_pos hmore]
      refine parse_toJson (h.passed turn ?_ ⟨Nat.succ_le_succ (Nat.zero_le _), hmore⟩)
      cases horder : m.payload.turnOrder with
      | nil =>
        rw [horder] at hlt
        cases hlt
      | cons first rest => exact List.mem_cons_self
    · dsimp only
      rw [if_neg hmore, if_neg hmore]
      exact parse_toJson (h.ended turn)

end Next

/-! ## The walk -/

/-- The turns from a place in a round on: the rest of the round, and all later rounds. -/
def turnsFrom (order : List JsString) (maxRounds i round : Nat) : List (Nat × JsString) :=
  (order.drop i).map (Prod.mk round) ++
    (List.range' (round + 1) (maxRounds - round)).flatMap fun later => order.map (Prod.mk later)

theorem length_turnsFrom (order : List JsString) (maxRounds i round : Nat) :
    (turnsFrom order maxRounds i round).length = (order.length - i) + order.length * (maxRounds - round) := by
  unfold turnsFrom
  rw [length_append, length_map, length_drop, length_flatMap]
  simp only [length_map, map_const', sum_replicate, length_range', smul_eq_mul]
  rw [Nat.mul_comm]

variable {maxRounds i round : Nat}

theorem turnsFrom_next {speaker : JsString} (hi : order[i]? = some speaker) :
    turnsFrom order maxRounds i round = (round, speaker) :: turnsFrom order maxRounds (i + 1) round := by
  obtain ⟨hlt, hget⟩ := List.getElem?_eq_some_iff.mp hi
  unfold turnsFrom
  rw [List.drop_eq_getElem_cons hlt, hget]
  rfl

theorem turnsFrom_wrap (hround : round < maxRounds) :
    turnsFrom order maxRounds order.length round = turnsFrom order maxRounds 0 (round + 1) := by
  unfold turnsFrom
  obtain ⟨more, hmore⟩ := Nat.exists_eq_add_of_lt hround
  rw [drop_length, drop_zero, map_nil, nil_append,
    show maxRounds - round = more + 1 by omega, show maxRounds - (round + 1) = more by omega, range'_succ,
    flatMap_cons]

theorem turnsFrom_last :
    turnsFrom order maxRounds order.length maxRounds = [] := by
  unfold turnsFrom
  rw [drop_length, Nat.sub_self]
  rfl

/-- A token that passes the turn walks through all turns that are left, each step builds
a token that the parser accepts, and the one after the last turn ends the discussion. -/
theorem walk_visits (h : m.Valid) (haction : m.action = .passTurn)
    (hi : m.payload.turnOrder[i]? = some m.payload.currentSpeaker) {turns : List Turn}
    (hturns : turns.length ≤ (turnsFrom m.payload.turnOrder m.payload.maxRounds i m.payload.round).length) :
    ∃ last, walk turns m =
        some ((turnsFrom m.payload.turnOrder m.payload.maxRounds i m.payload.round).take turns.length, last) ∧
      parseDiscussionV1 last.toJson = some last ∧
      last.action =
        if turns.length = (turnsFrom m.payload.turnOrder m.payload.maxRounds i m.payload.round).length then .endDiscussion
        else .passTurn := by
  induction turns generalizing m i with
  | nil =>
    refine ⟨m, rfl, parse_toJson h, ?_⟩
    rw [turnsFrom_next hi, if_neg (by simp)]
    exact haction
  | cons turn rest ih =>
    rw [turnsFrom_next hi] at hturns ⊢
    rw [List.length_cons, List.length_cons, Nat.succ_le_succ_iff] at hturns
    rw [walk, if_pos haction, sendV1Advance_valid h turn hi]
    simp only [List.length_cons, List.take_succ_cons, Nat.succ_inj]
    have hstep : ∀ {next : DiscussionV1Message} {j : Nat}, next.Valid → next.action = .passTurn →
        next.payload.turnOrder[j]? = some next.payload.currentSpeaker →
        turnsFrom next.payload.turnOrder next.payload.maxRounds j next.payload.round =
          turnsFrom m.payload.turnOrder m.payload.maxRounds (i + 1) m.payload.round →
        ∃ last, ((some next).bind fun next => (walk rest next).bind fun walked =>
            some ((m.payload.round, m.payload.currentSpeaker) :: walked.1, walked.2)) =
            some ((m.payload.round, m.payload.currentSpeaker) ::
              (turnsFrom m.payload.turnOrder m.payload.maxRounds (i + 1) m.payload.round).take rest.length, last) ∧
          parseDiscussionV1 last.toJson = some last ∧
          last.action =
            if rest.length = (turnsFrom m.payload.turnOrder m.payload.maxRounds (i + 1) m.payload.round).length then
              .endDiscussion
            else .passTurn := by
      intro next j hnext hpass hj heq
      obtain ⟨last, hwalk, hparse, hlast⟩ := ih hnext hpass hj (by rw [heq]; exact hturns)
      rw [heq] at hwalk hlast
      refine ⟨last, ?_, hparse, hlast⟩
      rw [Option.bind_some, hwalk]
      rfl
    have hround := h.round_le
    cases hnext : m.payload.turnOrder[i + 1]? with
    | some next =>
      dsimp only
      have hmem := List.mem_of_getElem? hnext
      exact hstep (h.passed turn hmem ⟨h.payload.round.1, hround⟩) rfl hnext rfl
    | none =>
      dsimp only
      have hlength : i + 1 = m.payload.turnOrder.length := by
        have hle := List.getElem?_eq_none_iff.mp hnext
        have hlt := (List.getElem?_eq_some_iff.mp hi).1
        omega
      by_cases hmore : m.payload.round < m.payload.maxRounds
      · rw [if_pos hmore]
        have hfirst : m.payload.turnOrder[0]? = some (m.payload.turnOrder.headD []) := by
          cases horder : m.payload.turnOrder with
          | nil =>
            rw [horder] at hlength
            cases hlength
          | cons first others => rfl
        refine hstep (h.passed turn (List.mem_of_getElem? hfirst) ⟨Nat.succ_le_succ (Nat.zero_le _), hmore⟩) rfl
          hfirst ?_
        rw [hlength, turnsFrom_wrap hmore]
        rfl
      · rw [if_neg hmore]
        have hlast : m.payload.round = m.payload.maxRounds := by omega
        have hnone : turnsFrom m.payload.turnOrder m.payload.maxRounds (i + 1) m.payload.round = [] := by
          rw [hlength, hlast]
          exact turnsFrom_last
        rw [hnone] at hturns ⊢
        have hempty : rest = [] := List.length_eq_zero_iff.mp (Nat.le_zero.mp hturns)
        subst hempty
        exact ⟨ended m turn, rfl, parse_toJson (h.ended turn), rfl⟩

/-- The walk of a token that was received with the action `pass_turn`, whatever is
answered and whichever turns time out. -/
theorem token_walk {raw : Json} {m : DiscussionV1Message} (hparse : parseDiscussionV1 raw = some m)
    (haction : m.action = .passTurn) (turns : List Turn) :
    let order := m.payload.turnOrder
    let i := order.idxOf m.payload.currentSpeaker
    let left := turnsFrom order m.payload.maxRounds i m.payload.round
    left.length = (order.length - i) + order.length * (m.payload.maxRounds - m.payload.round) ∧
      (turns.length ≤ left.length →
        ∃ last, walk turns m = some (left.take turns.length, last) ∧ parseDiscussionV1 last.toJson = some last ∧
          last.action = if turns.length = left.length then .endDiscussion else .passTurn) := by
  have h : m.Valid := valid_of_parse hparse
  have hi : m.payload.turnOrder[m.payload.turnOrder.idxOf m.payload.currentSpeaker]? = some m.payload.currentSpeaker := by
    rw [getElem?_eq_getElem h.place, getElem_idxOf h.place]
  exact ⟨length_turnsFrom _ _ _ _, walk_visits h haction hi⟩

/-- A token at the second of two speakers, in the first of two rounds. -/
def secondSpeaker : DiscussionV1Message where
  discussionId := js "discussion"
  action := .passTurn
  payload := {
    groupId := js "group"
    turnOrder := [js "first", js "second"]
    currentSpeaker := js "second"
    currentSpeakerName := none
    nextSpeaker := some (js "second")
    round := 1
    maxRounds := 2
    originatorUser := js "user"
    originatorText := js "topic"
    originatorMsgUid := js "uid"
    startedAt := 1
    mentionOrdered := false
    lastSpeakerResponse := none }
  timestamp := 0

theorem token_walk_secondSpeaker :
    ∃ last, walk [⟨js "one", false, .null⟩, ⟨[], true, .null⟩, ⟨js "three", false, .null⟩] secondSpeaker =
        some ([(1, js "second"), (2, js "first"), (2, js "second")], last) ∧ last.action = .endDiscussion := by
  have hparse : parseDiscussionV1 secondSpeaker.toJson = some secondSpeaker := by decide +kernel
  obtain ⟨last, hwalk, _, hlast⟩ :=
    (token_walk hparse rfl [⟨js "one", false, .null⟩, ⟨[], true, .null⟩, ⟨js "three", false, .null⟩]).2 (by decide +kernel)
  exact ⟨last, hwalk, hlast⟩

end ClawMessenger.Ports.DiscussionV1
