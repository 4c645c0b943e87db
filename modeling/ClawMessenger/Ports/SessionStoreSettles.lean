import ClawMessenger.Ports.SessionStoreKeeps

/-!
# Transitions settle

Every transition of a sound state with the arguments its callers pass gives a
sound state or is refused for a reason a caller can see: someone else owns the
session or the room, there is no record to update, or the table of claims is
full (`transition_settles`).  The checks a transition makes are exactly what
the update after them needs.
-/

namespace ClawMessenger.Ports.SessionStore

open Verified Verified.JsString List
open Verified.Machine (Reach advance exec AllAllowed reach_exec)
open Conversation Dedup

open Transition (map_state)
open DedupEntry (admitted schema)

variable {state : RouterState} {now : Nat}

/-! ## Arguments and refusals -/

section

variable (state : RouterState)

/-- The arguments satisfy the schemas of their types; a reservation is built by
the router, with a task id no stored record has. -/
def StoreOp.ValidArgs : StoreOp → Prop
  | applyEventSession input => validIdentity input.conversation = true ∧
      (∀ id ∈ input.submittedResumeSessionId, identifier 4096 id = true) ∧
      ∀ id ∈ input.authoritativeSessionId, identifier 4096 id = true
  | switchKnown identity _ => validIdentity identity = true
  | deleteKnown identity _ => validIdentity identity = true
  | clearCurrent identity => validIdentity identity = true
  | claimMessage runtime messageUid claimId => runtimeIdSchema runtime = true ∧
      identifier 256 messageUid = true ∧ isHexOfLength 32 claimId = true
  | admitMessage _ _ => True
  | releaseMessage _ _ => True
  | rememberInteractiveRoom _ _ discussionId => identifier 256 discussionId = true
  | reserveInteractive record => record.Sound ∧
      ∀ entry ∈ state.interactiveRequests, entry.taskId ≠ record.taskId
  | updateInteractive _ changes sessionId =>
    (∀ response ∈ changes.response, response.isObject = true) ∧
    ∀ id ∈ sessionId, identifier 4096 id = true

/-- The provider session the operation would file belongs to someone else. -/
def StoreOp.SessionConflict : StoreOp → Prop
  | applyEventSession input => ∃ id ∈ input.authoritativeSessionId,
      ∃ owner, owner ≠ .conversation (conversationKey input.conversation) ∧
        state.Owns input.conversation.runtimeId id owner
  | updateInteractive key _ sessionId => ∃ id ∈ sessionId, ∃ entry ∈ findRequest state key,
      ∃ owner, owner ≠ .discussion entry.sessionKey ∧ state.Owns entry.runtimeId id owner
  | _ => False

/-- The room is remembered for another discussion. -/
def StoreOp.RoomConflict : StoreOp → Prop
  | rememberInteractiveRoom identity roomId discussionId =>
    ∃ previous, state.interactiveRooms.get?
      (interactiveSessionKey identity.runtimeId identity.nodeId (js "chatroom") roomId) =
        some previous ∧ previous ≠ discussionId
  | _ => False

/-- There is no record of the key to update. -/
def StoreOp.UnknownRequest : StoreOp → Prop
  | updateInteractive key _ _ => findRequest state key = none
  | _ => False

/-- The deduplication table has no room for another claim. -/
def StoreOp.ClaimsFull (now : Nat) : StoreOp → Prop
  | claimMessage runtime _ _ =>
    MAX_DEDUP_PER_RUNTIME ≤
      ((pruneDedup state.dedup now).filter fun e => e.runtimeId == runtime).length ∨
    MAX_DEDUP_ENTRIES ≤ (pruneDedup state.dedup now).length
  | _ => False

/-- Why a transition may refuse. -/
def StoreOp.Refused (now : Nat) (op : StoreOp) : Prop :=
  op.SessionConflict state ∨ op.RoomConflict state ∨ op.UnknownRequest state ∨
    op.ClaimsFull state now

/-- The transition gives a sound state, or is refused. -/
def Settles (now : Nat) (op : StoreOp) : Prop :=
  match op.transition state now with
  | .ok t => t.state.Sound ∧ t.state.Timed now
  | .error _ => op.Refused state now

end

variable {op : StoreOp}

theorem settles_of_ok {t : Transition StoreAnswer} (ht : op.transition state now = .ok t)
    (h : t.state.Sound ∧ t.state.Timed now) :
    Settles state now op := by
  rw [Settles, ht]
  exact h

variable {e : RouterStateError}

theorem settles_of_error (ht : op.transition state now = .error e) (h : op.Refused state now) :
    Settles state now op := by
  rw [Settles, ht]
  exact h

/-! ## Conversations -/

section Conversations

variable {identity : ConversationIdentity}

variable {entry : SessionEntry}

theorem stateEntry_sound (h : state.Sound) (hfind : stateEntry state identity = some entry) :
    entry.Sound :=
  h.sessions entry (mem_of_find?_eq_some hfind)

theorem clearCurrent_isOk (state : RouterState) (now : Nat)
    (hidentity : validIdentity identity = true) :
    ∃ t, clearCurrent identity state now = .ok t := by
  have hcheck : checkIdentity identity = .ok () := checkIdentity_ok.mpr hidentity
  unfold clearCurrent
  rw [hcheck]
  cases stateEntry state identity with
  | none => exact ⟨_, rfl⟩
  | some entry =>
    by_cases hnone : entry.currentSessionId.isNone = true
    · exact ⟨_, if_pos hnone⟩
    · exact ⟨_, if_neg hnone⟩

theorem clearCurrent_settles (h : state.Sound) (htimed : state.Timed now)
    (hnow : timestamp now = true) (hidentity : validIdentity identity = true) :
    Settles state now (.clearCurrent identity) := by
  obtain ⟨t, ht⟩ := clearCurrent_isOk state now hidentity
  refine settles_of_ok (map_eq_ok.mpr ⟨t, ht, rfl⟩) ?_
  rw [map_state]
  rcases clearCurrent_ok ht with ⟨_, hstate⟩ | ⟨_, hstate⟩
  · rw [hstate]
    exact ⟨h, htimed⟩
  · rw [hstate]
    constructor
    · apply h.updateEntry
      intro entry hfind
      exact KeepsEntry.of_sublist (stateEntry_sound h hfind) (Sublist.refl _)
        (fun _ hid => by cases hid) hnow
    · exact htimed.updateEntry fun _ _ session hsession => .inl hsession

theorem switchKnown_isOk (state : RouterState) (now : Nat) (sessionId : JsString)
    (hidentity : validIdentity identity = true) :
    ∃ t, switchKnown identity sessionId state now = .ok t := by
  have hcheck : checkIdentity identity = .ok () := checkIdentity_ok.mpr hidentity
  unfold switchKnown
  rw [hcheck]
  cases stateEntry state identity with
  | none => exact ⟨_, rfl⟩
  | some entry =>
    by_cases hknown : (!entry.knownSessions.any fun session =>
        session.sessionId == sessionId) = true
    · exact ⟨_, if_pos hknown⟩
    · by_cases hcurrent : entry.currentSessionId = some sessionId
      · exact ⟨_, (if_neg hknown).trans (if_pos hcurrent)⟩
      · exact ⟨_, (if_neg hknown).trans (if_neg hcurrent)⟩

theorem switchKnown_settles (h : state.Sound) (htimed : state.Timed now)
    (hnow : timestamp now = true) (sessionId : JsString)
    (hidentity : validIdentity identity = true) :
    Settles state now (.switchKnown identity sessionId) := by
  obtain ⟨t, ht⟩ := switchKnown_isOk state now sessionId hidentity
  refine settles_of_ok (map_eq_ok.mpr ⟨t, ht, rfl⟩) ?_
  rw [map_state]
  rcases switchKnown_ok ht with ⟨_, hstate⟩ | ⟨_, ⟨known, hknown, hmem⟩, hstate⟩
  · rw [hstate]
    exact ⟨h, htimed⟩
  · rw [hstate]
    constructor
    · apply h.updateEntry
      intro entry hfind
      rw [hknown, Option.some.injEq] at hfind
      subst hfind
      apply KeepsEntry.of_sublist (stateEntry_sound h hknown) (Sublist.refl _) _ hnow
      intro id hid
      rw [Option.mem_some_iff] at hid
      exact hid ▸ hmem
    · exact htimed.updateEntry fun _ _ session hsession => .inl hsession

theorem deleteKnown_isOk (state : RouterState) (now : Nat) (sessionId : JsString)
    (hidentity : validIdentity identity = true) :
    ∃ t, deleteKnown identity sessionId state now = .ok t := by
  have hcheck : checkIdentity identity = .ok () := checkIdentity_ok.mpr hidentity
  unfold deleteKnown
  rw [hcheck]
  cases stateEntry state identity with
  | none => exact ⟨_, rfl⟩
  | some entry =>
    by_cases hknown : (!entry.knownSessions.any fun session =>
        session.sessionId == sessionId) = true
    · exact ⟨_, if_pos hknown⟩
    · exact ⟨_, if_neg hknown⟩

theorem deleteSession_current (sessionId : JsString) (now : Nat) (h : entry.Sound) :
    ∀ id ∈ (entry.deleteSession sessionId now).currentSessionId,
      id ∈ (entry.deleteSession sessionId now).knownSessions.map KnownSession.sessionId := by
  intro id hid
  rw [SessionEntry.deleteSession] at hid
  split at hid
  · cases hid
  · next hne =>
      obtain ⟨session, hmem, rfl⟩ := mem_map.mp (h.current id hid)
      have hother : session.sessionId ≠ sessionId := by
        rintro rfl
        exact hne hid
      exact mem_map_of_mem ((mem_eraseP_of_neg (by simpa using hother)).mpr hmem)

theorem deleteKnown_settles (h : state.Sound) (htimed : state.Timed now)
    (hnow : timestamp now = true) (sessionId : JsString)
    (hidentity : validIdentity identity = true) :
    Settles state now (.deleteKnown identity sessionId) := by
  obtain ⟨t, ht⟩ := deleteKnown_isOk state now sessionId hidentity
  refine settles_of_ok (map_eq_ok.mpr ⟨t, ht, rfl⟩) ?_
  rw [map_state]
  rcases deleteKnown_ok ht with ⟨_, hstate⟩ | ⟨_, hstate⟩
  · rw [hstate]
    exact ⟨h, htimed⟩
  · rw [hstate]
    constructor
    · apply h.updateEntry
      intro entry hfind
      have hsound := stateEntry_sound h hfind
      exact KeepsEntry.of_sublist hsound eraseP_sublist (deleteSession_current sessionId now hsound) hnow
    · apply htimed.updateEntry
      exact fun _ _ session hsession => .inl (eraseP_sublist.subset hsession)

end Conversations

/-! ## Events -/

section Events

variable {input : EventSession}

/-- The entry of the conversation, a fresh one if there is none. -/
def EventSession.entry (input : EventSession) (state : RouterState) (now : Nat) : SessionEntry :=
  (stateEntry state input.conversation).getD (createEntry input.conversation now)

theorem stateEntry_ensureEntry (input : EventSession) (state : RouterState) (now : Nat) :
    stateEntry (state.ensureEntry input.conversation now) input.conversation =
      some (input.entry state now) := by
  rw [EventSession.entry, RouterState.ensureEntry]
  cases hfind : stateEntry state input.conversation with
  | some entry => simpa using hfind
  | none =>
    have hnone : state.sessions.find? (fun entry =>
        entry.conversationKey == conversationKey input.conversation) = none := hfind
    simp [stateEntry, hnone, createEntry]

variable {identity : ConversationIdentity}

theorem mem_ensureEntry {e : SessionEntry} (he : e ∈ (state.ensureEntry identity now).sessions) :
    e ∈ state.sessions ∨ e = createEntry identity now := by
  unfold RouterState.ensureEntry at he
  split at he
  · exact .inl he
  · rcases mem_append.mp he with he | he
    · exact .inl he
    · exact .inr (mem_singleton.mp he)

@[simp] theorem ensureEntry_interactiveSessions (identity : ConversationIdentity) :
    (state.ensureEntry identity now).interactiveSessions = state.interactiveSessions := by
  unfold RouterState.ensureEntry
  split <;> rfl

theorem ensureEntry_sound (h : state.Sound) (hidentity : validIdentity identity = true)
    (hnow : timestamp now = true) :
    (state.ensureEntry identity now).Sound := by
  unfold RouterState.ensureEntry
  cases hfind : stateEntry state identity with
  | some entry => exact h
  | none =>
    have hnew : createEntry identity now ∉ state.sessions ∧
        conversationKey identity ∉ state.sessions.map SessionEntry.conversationKey := by
      have hnone := find?_eq_none.mp hfind
      constructor
      · intro hmem
        exact hnone _ hmem (by simp [createEntry])
      · intro hmem
        obtain ⟨entry, hentry, hkey⟩ := mem_map.mp hmem
        exact hnone entry hentry (by simpa using hkey)
    refine { h with sessions := ?_, conversations := ?_, owners := ?_ }
    · intro entry hentry
      rcases mem_append.mp hentry with hentry | hentry
      · exact h.sessions entry hentry
      · rw [mem_singleton.mp hentry]
        exact createEntry_sound hidentity hnow
    · have hnd := h.conversations
      simp only [Option.isSome_none, Bool.false_eq_true, if_false, map_append, map_cons,
        map_nil, nodup_append]
      refine ⟨hnd, by simp, fun key hkey key' hkey' heq => ?_⟩
      rw [mem_singleton] at hkey'
      exact hnew.2 (by rw [← show key = conversationKey identity from heq.trans hkey']; exact hkey)
    · have howners := h.owners
      simpa [RouterState.sessionOwners, SessionEntry.ownerKeys, createEntry] using howners

section

variable (h : state.Sound) (hidentity : validIdentity input.conversation = true)
  (hnow : timestamp now = true)
include h hidentity hnow

theorem eventEntry_sound : (input.entry state now).Sound := by
  have hmem := mem_of_find?_eq_some (stateEntry_ensureEntry input state now)
  exact (ensureEntry_sound h hidentity hnow).sessions _ hmem

theorem eventEntry_runtimeId :
    (input.entry state now).runtimeId = input.conversation.runtimeId := by
  have hkey : (input.entry state now).conversationKey = conversationKey input.conversation := by
    simpa using find?_some (stateEntry_ensureEntry input state now)
  rw [(eventEntry_sound h hidentity hnow).identity.2.1] at hkey
  exact conversationKey_runtimeId hkey

end

theorem eventEntry_timed (htimed : state.Timed now) :
    ∀ session ∈ (input.entry state now).knownSessions, session.updatedAt ≤ now := by
  have hmem := mem_of_find?_eq_some (stateEntry_ensureEntry input state now)
  rcases mem_ensureEntry hmem with hold | hnew
  · exact htimed.sessions _ hold
  · rw [hnew]
    exact fun _ hsession => (not_mem_nil hsession).elim

/-- Clearing leaves the conversation with fewer sessions. -/
theorem clearedEntry_spec (hentry : (input.entry state now).Sound) (hnow : timestamp now = true) :
    ∃ known current time, input.clearedEntry state now =
        { input.entry state now with
          knownSessions := known
          currentSessionId := current
          updatedAt := time } ∧
      known.Sublist (input.entry state now).knownSessions ∧
      (∀ id ∈ current, id ∈ known.map KnownSession.sessionId) ∧ timestamp time = true := by
  unfold EventSession.clearedEntry
  dsimp only
  cases hclearable : clearable input (stateEntry state input.conversation) with
  | some submitted =>
    exact ⟨_, none, now, rfl, filter_sublist, fun _ hid => (by cases hid), hnow⟩
  | none =>
    have htime : timestamp (input.entry state now).updatedAt = true := by
      have hschema := hentry.schema
      rw [SessionEntry.schema, Bool.and_eq_true] at hschema
      exact hschema.2
    exact ⟨_, _, _, rfl, Sublist.refl _, hentry.current, htime⟩

/-- The entry an event leaves, when the authoritative session is a valid id. -/
theorem acceptedEntry_spec (hentry : (input.entry state now).Sound) (hnow : timestamp now = true)
    (htimed : ∀ s ∈ (input.entry state now).knownSessions, s.updatedAt ≤ now)
    (hvalid : ∀ id ∈ input.authoritativeSessionId, identifier 4096 id = true) :
    ∃ entry, input.acceptedEntry state now = .ok entry ∧ entry.Sound ∧
      entry.conversationKey = (input.entry state now).conversationKey ∧
      entry.runtimeId = (input.entry state now).runtimeId ∧
      ∀ session ∈ entry.knownSessions, session ∈ (input.entry state now).knownSessions ∨
        ∃ id ∈ input.authoritativeSessionId, session = ⟨id, now⟩ := by
  obtain ⟨known, current, time, hcleared, hsub, hcurrent, htime⟩ := clearedEntry_spec hentry hnow
  unfold EventSession.acceptedEntry
  rw [hcleared]
  cases hauthoritative : input.authoritativeSessionId with
  | none =>
    refine ⟨_, rfl, ?_, rfl, rfl, fun session hsession => .inl (hsub.subset hsession)⟩
    exact hentry.keep (hentry.known.sublist hsub) (hsub.length_le.trans hentry.few) hcurrent htime
  | some id =>
    obtain ⟨known', haccept, haccepted⟩ := acceptAuthoritative_spec
      { input.entry state now with
        knownSessions := known, currentSessionId := current, updatedAt := time }
      (hentry.known.sublist hsub) (hvalid id hauthoritative) hnow
      (fun s hs => htimed s (hsub.subset hs))
    refine ⟨_, haccept, ?_, rfl, rfl, fun session hsession => ?_⟩
    · apply hentry.keep haccepted.known haccepted.few _ hnow
      intro id' hid'
      rw [Option.mem_some_iff] at hid'
      exact hid' ▸ haccepted.current
    · rcases haccepted.origin session hsession with hold | hnew
      · exact .inl (hsub.subset hold)
      · exact .inr ⟨id, rfl, hnew⟩

theorem Unowned.ensureEntry {text : JsString} (h : Unowned state identity text) :
    Unowned (state.ensureEntry identity now) identity text := by
  constructor
  · intro entry hentry htext
    rcases mem_ensureEntry hentry with hold | hnew
    · exact h.conversations entry hold htext
    · rw [hnew]
      rfl
  · rw [ensureEntry_interactiveSessions]
    exact h.discussions

theorem ensureEntry_timed (h : state.Timed now) :
    (state.ensureEntry identity now).Timed now := by
  constructor
  · intro entry hentry
    rcases mem_ensureEntry hentry with hold | hnew
    · exact h.sessions entry hold
    · rw [hnew]
      exact fun _ hsession => (not_mem_nil hsession).elim
  · rw [ensureEntry_dedup]
    exact h.dedup

theorem acceptedEntry_keeps (h : state.Sound) (hidentity : validIdentity input.conversation = true)
    (hnow : timestamp now = true) {entry : SessionEntry} (hsound : entry.Sound)
    (hkey : entry.conversationKey = (input.entry state now).conversationKey)
    (hruntime : entry.runtimeId = (input.entry state now).runtimeId)
    (horigin : ∀ session ∈ entry.knownSessions,
      session ∈ (input.entry state now).knownSessions ∨
        ∃ id ∈ input.authoritativeSessionId, session = ⟨id, now⟩)
    (hunowned : ∀ id ∈ input.authoritativeSessionId,
      Unowned state input.conversation (ownerKey input.conversation.runtimeId id)) :
    KeepsEntry (state.ensureEntry input.conversation now) input.conversation
      (input.entry state now) entry := by
  refine ⟨hsound, hkey, fun text htext => ?_⟩
  obtain ⟨sessionId, hmem, rfl⟩ := mem_ownerKeys_iff.mp htext
  obtain ⟨session, hsession, rfl⟩ := mem_map.mp hmem
  rcases horigin session hsession with hold | ⟨id, hid, rfl⟩
  · exact .inl (mem_ownerKeys_ownerKey.mpr ⟨hruntime.symm, mem_map_of_mem hold⟩)
  · rw [hruntime, eventEntry_runtimeId h hidentity hnow]
    exact .inr (hunowned id hid).ensureEntry

theorem checkOptional_isOk {α : Type} {check : α → Except RouterStateError Unit}
    {field : Option α} (h : ∀ value ∈ field, check value = .ok ()) :
    checkOptional check field = .ok () := by
  cases field with
  | none => rfl
  | some value => exact h value rfl

theorem applyEventSession_settles (h : state.Sound) (htimed : state.Timed now)
    (hnow : timestamp now = true) (hargs : (StoreOp.applyEventSession input).ValidArgs state) :
    Settles state now (.applyEventSession input) := by
  obtain ⟨hidentity, hsubmitted, hauthoritative⟩ := hargs
  have hcheck : checkIdentity input.conversation = .ok () := checkIdentity_ok.mpr hidentity
  have hcheck' : checkOptional checkSessionId input.submittedResumeSessionId = .ok () :=
    checkOptional_isOk fun id hid => checkSessionId_ok.mpr (hsubmitted id hid)
  have hcheck'' : checkOptional checkSessionId input.authoritativeSessionId = .ok () :=
    checkOptional_isOk fun id hid => checkSessionId_ok.mpr (hauthoritative id hid)
  have heq := applyEventSession_eq input state now
  rw [hcheck, hcheck', hcheck''] at heq
  by_cases hidle : ((clearable input (stateEntry state input.conversation)).isNone
      && input.authoritativeSessionId.isNone) = true
  · rw [if_pos hidle] at heq
    exact settles_of_ok (map_eq_ok.mpr ⟨_, heq, rfl⟩) ⟨h, htimed⟩
  · rw [if_neg hidle] at heq
    by_cases havailable : ∀ id ∈ input.authoritativeSessionId,
        assertSessionAvailable state input.conversation id = .ok () ∧
          Unowned state input.conversation (ownerKey input.conversation.runtimeId id)
    · have hentry := eventEntry_sound h hidentity hnow
      obtain ⟨entry, haccepted, hsound, hkey, hruntime, horigin⟩ :=
        acceptedEntry_spec hentry hnow (eventEntry_timed htimed) hauthoritative
      rw [checkOptional_isOk fun id hid => (havailable id hid).1, haccepted] at heq
      refine settles_of_ok (map_eq_ok.mpr ⟨_, heq, rfl⟩) ⟨?_, ?_⟩
      · apply (ensureEntry_sound h hidentity hnow).updateEntry
        intro found hfind
        rw [stateEntry_ensureEntry, Option.some.injEq] at hfind
        subst hfind
        exact acceptedEntry_keeps h hidentity hnow hsound hkey hruntime horigin
          fun id hid => (havailable id hid).2
      · apply (ensureEntry_timed htimed).updateEntry
        intro found hfind session hsession
        rw [stateEntry_ensureEntry, Option.some.injEq] at hfind
        subst hfind
        rcases horigin session hsession with hold | ⟨_, _, rfl⟩
        · exact .inl hold
        · exact .inr (Nat.le_refl _)
    · simp only [not_forall] at havailable
      obtain ⟨id, hid, hnot⟩ := havailable
      rcases assertSessionAvailable_spec h input.conversation id with hok | ⟨herror, howner⟩
      · exact absurd hok hnot
      · have hsome : input.authoritativeSessionId = some id := hid
        rw [hsome, checkOptional, herror] at heq
        refine settles_of_error (e := .sessionConflict) ?_ (.inl ⟨id, hid, howner⟩)
        show (applyEventSession input state now).map _ = _
        rw [heq]
        rfl

end Events

/-! ## Messages -/

theorem RouterState.Sound.withDedup {entries : List DedupEntry} (h : state.Sound)
    (hentries : ∀ entry ∈ entries, entry.schema = true ∧ dedupConsistent entry = true)
    (hkeys : (entries.map DedupEntry.key).Nodup) :
    RouterState.Sound { state with dedup := entries } :=
  { h with dedup := hentries, dedupKeys := hkeys }

theorem RouterState.Sound.pruned (h : state.Sound) (now : Nat) : (state.pruned now).Sound :=
  h.withDedup (fun entry hentry => h.dedup entry (mem_filter.mp hentry).1)
    ((filter_sublist.map DedupEntry.key).nodup h.dedupKeys)

theorem RouterState.Timed.pruned (h : state.Timed now) (time : Nat) :
    (state.pruned time).Timed now :=
  ⟨h.sessions, fun entry hentry => h.dedup entry (mem_filter.mp hentry).1⟩

variable {runtime messageUid : JsString}

theorem dedupKey_bounded (hruntime : runtimeIdSchema runtime = true)
    (huid : identifier 256 messageUid = true) :
    identifier 8192 (dedupKey runtime messageUid) = true := by
  have hr := runtimeIdSchema_spec hruntime
  have hu := identifier_spec huid
  apply Json.keyText_bounded
  · simp [Json.KeyItem, hr.2, hu.2]
  · simp only [map_cons, map_nil, sum_cons, sum_nil, Json.itemUnits]
    omega

variable {claimId : JsString}

theorem claimMessage_error (h : claimMessage runtime messageUid claimId state now = .error e) :
    schema
      ⟨dedupKey runtime messageUid, runtime, messageUid, claimId, .claimed, now, none⟩ = false ∨
    (StoreOp.claimMessage runtime messageUid claimId).ClaimsFull state now := by
  unfold claimMessage claimDedup at h
  dsimp only at h
  by_cases hschema : schema
      ⟨dedupKey runtime messageUid, runtime, messageUid, claimId, .claimed, now, none⟩ = true
  · rw [hschema, Bool.not_true, if_neg Bool.false_ne_true] at h
    by_cases hany : ((pruneDedup state.dedup now).any fun e =>
        e.key == dedupKey runtime messageUid) = true
    · rw [if_pos hany] at h
      cases h
    · rw [if_neg hany] at h
      by_cases hfull : ((pruneDedup state.dedup now).filter fun e =>
          e.runtimeId == runtime).length ≥ MAX_DEDUP_PER_RUNTIME ∨
          (pruneDedup state.dedup now).length ≥ MAX_DEDUP_ENTRIES
      · exact .inr hfull
      · rw [if_neg hfull] at h
        cases h
  · exact .inl (by simpa using hschema)

section

variable (h : state.Sound) (htimed : state.Timed now)
include h htimed

theorem claimMessage_settles (hnow : timestamp now = true)
    (hargs : (StoreOp.claimMessage runtime messageUid claimId).ValidArgs state) :
    Settles state now (.claimMessage runtime messageUid claimId) := by
  obtain ⟨hruntime, huid, hid⟩ := hargs
  have hschema : schema
      ⟨dedupKey runtime messageUid, runtime, messageUid, claimId, .claimed, now, none⟩ = true := by
    simp [schema, dedupKey_bounded hruntime huid, hruntime, huid, hid, hnow]
  cases ht : claimMessage runtime messageUid claimId state now with
  | error e =>
    have hrefused : (StoreOp.claimMessage runtime messageUid claimId).ClaimsFull state now := by
      rcases claimMessage_error ht with hfalse | hfull
      · rw [hschema] at hfalse
        cases hfalse
      · exact hfull
    refine settles_of_error (e := e) ?_ (.inr (.inr (.inr hrefused)))
    rw [StoreOp.transition, ht]
    rfl
  | ok t =>
    refine settles_of_ok (map_eq_ok.mpr ⟨t, ht, rfl⟩) ?_
    rw [map_state]
    have hpruned := h.pruned now
    rcases claimMessage_ok ht with ⟨_, _, hstate⟩ | ⟨_, _, hclaimable, hstate⟩
    · rw [hstate]
      exact ⟨hpruned, htimed.pruned now⟩
    · rw [hstate]
      constructor
      · apply h.withDedup
        · intro entry hentry
          rcases mem_append.mp hentry with hold | hnew
          · exact hpruned.dedup entry hold
          · rw [mem_singleton.mp hnew]
            exact ⟨hschema, by simp [dedupConsistent]⟩
        · rw [map_append, nodup_append]
          refine ⟨hpruned.dedupKeys, by simp, fun key hkey key' hkey' heq => ?_⟩
          obtain ⟨entry, hentry, rfl⟩ := mem_map.mp hkey
          rw [map_singleton, mem_singleton] at hkey'
          exact hclaimable.free entry hentry (heq.trans hkey')
      · refine ⟨htimed.sessions, fun entry hentry => ?_⟩
        rcases mem_append.mp hentry with hold | hnew
        · exact (htimed.pruned now).dedup entry hold
        · rw [mem_singleton.mp hnew]

theorem admitMessage_settles (hnow : timestamp now = true) (key claimId : JsString) :
    Settles state now (.admitMessage key claimId) := by
  have ht : admitMessage key claimId state now =
      .ok ⟨(admitDedup state.dedup key claimId now).changed,
        (admitDedup state.dedup key claimId now).accepted,
        { state with dedup := (admitDedup state.dedup key claimId now).entries }⟩ := rfl
  refine settles_of_ok (map_eq_ok.mpr ⟨_, ht, rfl⟩) ?_
  rw [map_state]
  rcases admitMessage_ok ht with ⟨_, hstate, _⟩ | ⟨_, _, entry, hfind, _, _, hstate⟩
  · rw [hstate]
    exact ⟨h, htimed⟩
  · rw [hstate]
    constructor
    · apply h.withDedup
      · apply forall_updateFirst h.dedup
        intro old hold
        obtain ⟨hschema, hconsistent⟩ := h.dedup old (mem_of_find?_eq_some hold)
        have hclaimedAt := htimed.dedup old (mem_of_find?_eq_some hold)
        simp only [schema, Bool.and_eq_true, dedupConsistent] at hschema hconsistent
        constructor
        · simp [schema, admitted, hschema.1, hnow]
        · simp [dedupConsistent, admitted, hconsistent.1, hclaimedAt]
      · have hkeys : (updateFirst (fun e => e.key == key) (fun e => e.admitted now)
            state.dedup).map DedupEntry.key = state.dedup.map DedupEntry.key :=
          map_updateFirst _ fun _ _ => rfl
        rw [hkeys]
        exact h.dedupKeys
    · exact ⟨htimed.sessions, forall_updateFirst htimed.dedup fun old hold =>
        htimed.dedup old (mem_of_find?_eq_some hold)⟩

theorem releaseMessage_settles (key claimId : JsString) :
    Settles state now (.releaseMessage key claimId) := by
  have ht : releaseMessage key claimId state =
      .ok ⟨(releaseDedup state.dedup key claimId).changed,
        (releaseDedup state.dedup key claimId).accepted,
        { state with dedup := (releaseDedup state.dedup key claimId).entries }⟩ := rfl
  refine settles_of_ok (map_eq_ok.mpr ⟨_, ht, rfl⟩) ?_
  rw [map_state]
  rcases releaseMessage_ok ht with ⟨_, _, hstate⟩ | ⟨_, _, entry, _, _, hstate⟩
  · rw [hstate]
    exact ⟨h, htimed⟩
  · rw [hstate]
    exact ⟨h.withDedup (fun entry hentry => h.dedup entry (mem_of_mem_eraseP hentry))
        ((eraseP_sublist.map DedupEntry.key).nodup h.dedupKeys),
      htimed.sessions, fun entry hentry => htimed.dedup entry (mem_of_mem_eraseP hentry)⟩

end

/-! ## Rooms and requests -/

theorem rememberInteractiveRoom_settles (h : state.Sound) (htimed : state.Timed now)
    {identity : BindingIdentity} {roomId discussionId : JsString}
    (hdiscussion : identifier 256 discussionId = true) :
    Settles state now (.rememberInteractiveRoom identity roomId discussionId) := by
  cases ht : rememberInteractiveRoom identity roomId discussionId state with
  | error e =>
    refine settles_of_error (e := e) (by rw [StoreOp.transition, ht]; rfl) ?_
    refine .inr (.inl ?_)
    unfold rememberInteractiveRoom at ht
    dsimp only at ht
    split at ht
    · next previous hprevious =>
        by_cases hsame : previous = discussionId
        · rw [if_pos hsame] at ht
          cases ht
        · exact ⟨previous, hprevious, hsame⟩
    · rw [if_pos hdiscussion] at ht
      cases ht
  | ok t =>
    refine settles_of_ok (map_eq_ok.mpr ⟨t, ht, rfl⟩) ?_
    rw [map_state]
    rcases rememberInteractiveRoom_ok ht with ⟨_, hstate⟩ | ⟨_, _, _, hstate⟩
    · rw [hstate]
      exact ⟨h, htimed⟩
    · rw [hstate]
      refine ⟨{ h with rooms := fun e he => ?_ }, htimed.sessions, htimed.dedup⟩
      rcases OrderedMap.mem_entries_set_iff.mp he with rfl | ⟨_, hold⟩
      · exact hdiscussion
      · exact h.rooms e hold

theorem RouterState.Sound.retaining (h : state.Sound) (now : Nat) :
    (state.retaining now).Sound :=
  { h with
    requests := fun entry hentry => h.requests entry (mem_filter.mp hentry).1
    requestKeys := (filter_sublist.map InteractiveRequest.key).nodup h.requestKeys
    taskIds := (filter_sublist.map InteractiveRequest.taskId).nodup h.taskIds }

variable {record : InteractiveRequest} {sessionId : JsString}

theorem head_schema (h : record.schema = true) :
    record.head.schema = true := by
  simp only [InteractiveRequest.schema, Bool.and_eq_true] at h
  simp [InteractiveHead.schema, InteractiveRequest.head, h]

theorem RouterState.Sound.pushRequest (h : state.Sound) (hrecord : record.Sound)
    (hfresh : findRequest state record.key = none)
    (htask : ∀ entry ∈ state.interactiveRequests, entry.taskId ≠ record.taskId) :
    (state.pushRequest record).Sound := by
  have hkey : ∀ entry ∈ state.interactiveRequests, entry.key ≠ record.key := by
    intro entry hentry heq
    exact find?_eq_none.mp hfresh entry hentry (by simpa using heq)
  have hnodup : ∀ {f : InteractiveRequest → JsString},
      (state.interactiveRequests.map f).Nodup →
      (∀ entry ∈ state.interactiveRequests, f entry ≠ f record) →
      ((state.interactiveRequests ++ [record]).map f).Nodup := by
    intro f hnd hne
    rw [map_append, nodup_append]
    refine ⟨hnd, by simp, fun a ha b hb heq => ?_⟩
    obtain ⟨entry, hentry, rfl⟩ := mem_map.mp ha
    rw [map_singleton, mem_singleton] at hb
    exact hne entry hentry (heq.trans hb)
  refine { h with
    requests := fun entry hentry => ?_
    requestKeys := hnodup h.requestKeys hkey
    taskIds := hnodup h.taskIds htask
    heads := fun e he => ?_ }
  · rcases mem_append.mp hentry with hold | hnew
    · exact h.requests entry hold
    · rw [mem_singleton.mp hnew]
      exact hrecord
  · unfold RouterState.pushRequest at he
    split at he
    · rcases OrderedMap.mem_entries_set_iff.mp he with rfl | ⟨_, hold⟩
      · exact head_schema hrecord.schema
      · exact h.heads e hold
    · exact h.heads e he

theorem reserveInteractive_isOk (state : RouterState) (now : Nat)
    (h : record.schema = true) : ∃ t, reserveInteractive record state now = .ok t := by
  unfold reserveInteractive
  rw [h, Bool.not_true, if_neg Bool.false_ne_true]
  dsimp only
  split
  · exact ⟨_, rfl⟩
  · split
    · exact ⟨_, rfl⟩
    · split
      · exact ⟨_, rfl⟩
      · split
        · exact ⟨_, rfl⟩
        · exact ⟨_, rfl⟩

theorem reserveInteractive_settles (h : state.Sound) (htimed : state.Timed now)
    (hargs : (StoreOp.reserveInteractive record).ValidArgs state) :
    Settles state now (.reserveInteractive record) := by
  obtain ⟨hrecord, htask⟩ := hargs
  obtain ⟨t, ht⟩ := reserveInteractive_isOk state now hrecord.schema
  refine settles_of_ok (map_eq_ok.mpr ⟨t, ht, rfl⟩) ?_
  rw [map_state]
  have hretaining := h.retaining now
  rcases reserveInteractive_ok ht with ⟨_, hstate, _⟩ | ⟨_, hgrantable, _, hstate⟩
  · rw [hstate]
    exact ⟨hretaining, htimed.sessions, htimed.dedup⟩
  · rw [hstate]
    refine ⟨hretaining.pushRequest hrecord hgrantable.fresh fun entry hentry => ?_,
      htimed.sessions, htimed.dedup⟩
    exact htask entry (mem_filter.mp hentry).1

variable {entry : InteractiveRequest} {changes : InteractiveChanges}

theorem InteractiveRequest.Sound.assign (h : entry.Sound)
    (hresponse : ∀ response ∈ changes.response, response.isObject = true) :
    (entry.assign changes).Sound := by
  refine ⟨?_, h.consistent⟩
  have hschema := h.schema
  simp only [InteractiveRequest.schema, Bool.and_eq_true] at hschema ⊢
  refine ⟨hschema.1, ?_⟩
  rw [Option.all_eq_true]
  intro response hmem
  unfold InteractiveRequest.assign at hmem
  cases hnew : changes.response with
  | none =>
    rw [hnew, Option.none_or] at hmem
    exact (Option.all_eq_true _ _).mp hschema.2 response hmem
  | some new =>
    rw [hnew, Option.some_or] at hmem
    exact hresponse response (hnew.trans hmem)

theorem RouterState.Sound.assignRequest (h : state.Sound) (key : JsString)
    (hresponse : ∀ response ∈ changes.response, response.isObject = true) :
    (state.assignRequest key changes).Sound := by
  have hmap : ∀ {f : InteractiveRequest → JsString}, (∀ entry, f (entry.assign changes) = f entry) →
      (state.assignRequest key changes).interactiveRequests.map f =
        state.interactiveRequests.map f :=
    fun hf => map_updateFirst _ fun entry _ => hf entry
  refine { h with
    requests := forall_updateFirst h.requests fun entry hfind =>
      (h.requests entry (mem_of_find?_eq_some hfind)).assign hresponse
    requestKeys := ?_
    taskIds := ?_ }
  · rw [hmap fun _ => rfl]
    exact h.requestKeys
  · rw [hmap fun _ => rfl]
    exact h.taskIds

/-- The session key of a record names the runtime of the record. -/
theorem InteractiveRequest.Sound.owner (h : entry.Sound) :
    ∃ owner, parseInteractiveSessionOwner entry.sessionKey = .ok owner ∧
      owner.runtimeId = entry.runtimeId := by
  have hschema := h.schema
  have hconsistent := h.consistent
  simp only [InteractiveRequest.schema, InteractiveRequest.consistent, Bool.and_eq_true, beq_iff_eq]
    at hschema hconsistent
  obtain ⟨⟨⟨⟨_, hkey⟩, _⟩, _⟩, _⟩ := hconsistent
  have hruntime : runtimeIdSchema entry.runtimeId = true := by tauto
  have hnode : identifier 137 entry.nodeId = true := by tauto
  have hdiscussion : identifier 256 entry.discussionId = true := by tauto
  have hdistinct : (Json.arr [.str entry.runtimeId, .str entry.nodeId, .str (js "discussion"),
      .str entry.discussionId]).Distinct := ⟨trivial, trivial, trivial, trivial, trivial⟩
  refine ⟨⟨entry.runtimeId, entry.nodeId, entry.discussionId⟩, ?_, rfl⟩
  rw [hkey, interactiveSessionKey, parseInteractiveSessionOwner, Json.parse_stringify _ hdistinct]
  simp [hruntime, hnode, hdiscussion]

theorem mem_known_any {entry : SessionEntry} :
    (entry.knownSessions.any fun known => known.sessionId == sessionId) = true ↔
      sessionId ∈ entry.knownSessions.map KnownSession.sessionId := by
  simp

variable {runtimeId : JsString}

theorem knownToConversation_owns (hknown : knownToConversation state runtimeId sessionId = true) :
    ∃ key, state.Owns runtimeId sessionId (.conversation key) := by
  obtain ⟨entry, hentry, hboth⟩ := any_eq_true.mp hknown
  rw [Bool.and_eq_true, beq_iff_eq, mem_known_any] at hboth
  exact ⟨entry.conversationKey, entry, hentry, rfl, hboth⟩

theorem knownToConversation_false (hknown : knownToConversation state runtimeId sessionId = false) :
    ∀ entry ∈ state.sessions, ownerKey runtimeId sessionId ∉ entry.ownerKeys := by
  intro entry hentry hmem
  have hfalse := any_eq_false.mp hknown entry hentry
  apply hfalse
  rw [Bool.and_eq_true, beq_iff_eq, mem_known_any]
  exact mem_ownerKeys_ownerKey.mp hmem

/-- Filing a session that no one owns for a discussion. -/
theorem RouterState.Sound.fileSession (h : state.Sound) (hentry : entry.Sound)
    {sessionId : JsString} (hrecordable : Recordable state entry sessionId) :
    RouterState.Sound { state with
      interactiveSessions := state.interactiveSessions.set entry.sessionKey sessionId } := by
  obtain ⟨owner, howner, hruntime⟩ := hentry.owner
  have hothers : ∀ e ∈ state.interactiveSessions.entries, e.1 ≠ entry.sessionKey →
      interactiveOwnerKey e ≠ ownerKey entry.runtimeId sessionId := by
    rcases ownedByOther_spec h entry sessionId with ⟨_, hfree⟩ | ⟨htrue, _⟩
    · exact hfree
    · have hfalse := hrecordable.notOwned
      rw [htrue] at hfalse
      cases hfalse
  have hself : interactiveOwnerKey (entry.sessionKey, sessionId) =
      ownerKey entry.runtimeId sessionId := by
    rw [interactiveOwnerKey_eq howner, hruntime]
  have howners := h.owners
  rw [RouterState.sessionOwners, nodup_append] at howners
  refine { h with filed := fun e he => ?_, owners := ?_ }
  · rcases OrderedMap.mem_entries_set_iff.mp he with rfl | ⟨_, hold⟩
    · exact ⟨hrecordable.valid, owner, howner⟩
    · exact h.filed e hold
  · rw [RouterState.sessionOwners, nodup_append]
    refine ⟨howners.1, ?_, fun text htext text' htext' heq => ?_⟩
    · apply OrderedMap.nodup_map_set howners.2.1
      rw [hself]
      exact hothers
    · subst heq
      obtain ⟨e, he, hkey⟩ := mem_map.mp htext'
      rcases OrderedMap.mem_entries_set_iff.mp he with rfl | ⟨_, hold⟩
      · obtain ⟨conversation, hconversation, hmem⟩ := mem_flatMap.mp htext
        rw [← hkey, hself] at hmem
        exact knownToConversation_false hrecordable.notKnown conversation hconversation hmem
      · exact howners.2.2 text htext text (hkey ▸ mem_map_of_mem hold) rfl

/-- A session is filed, or someone else owns it. -/
theorem recordSession_spec (h : state.Sound) (entry : InteractiveRequest)
    (hid : identifier 4096 sessionId = true) :
    (∃ state', recordSession state entry sessionId = .ok state') ∨
    ((∃ e, recordSession state entry sessionId = .error e) ∧
      ∃ owner, owner ≠ .discussion entry.sessionKey ∧
        state.Owns entry.runtimeId sessionId owner) := by
  unfold recordSession
  rcases ownedByOther_spec h entry sessionId with ⟨hfalse, _⟩ | ⟨htrue, howner⟩
  · rw [hfalse]
    cases hknown : knownToConversation state entry.runtimeId sessionId with
    | true =>
      obtain ⟨key, howns⟩ := knownToConversation_owns hknown
      exact .inr ⟨⟨.sessionConflict, rfl⟩, .conversation key, (fun hc => by cases hc), howns⟩
    | false =>
      have hcheck : checkSessionId sessionId = .ok () := checkSessionId_ok.mpr hid
      rw [hcheck]
      exact .inl ⟨_, rfl⟩
  · rw [htrue]
    exact .inr ⟨⟨.sessionConflict, rfl⟩, howner⟩

theorem updateInteractive_settles (h : state.Sound) (htimed : state.Timed now) {key : JsString}
    {sessionId : Option JsString}
    (hargs : (StoreOp.updateInteractive key changes sessionId).ValidArgs state) :
    Settles state now (.updateInteractive key changes sessionId) := by
  obtain ⟨hresponse, hsession⟩ := hargs
  have hassigned := h.assignRequest key hresponse
  cases ht : updateInteractive key changes sessionId state with
  | ok t =>
    refine settles_of_ok (map_eq_ok.mpr ⟨t, ht, rfl⟩) ?_
    rw [map_state]
    obtain ⟨found, hfind, _, _, hstate⟩ := updateInteractive_ok ht
    rcases hstate with hstate | ⟨id, head, _, _, _, hrecordable, hstate⟩
    · rw [hstate]
      exact ⟨hassigned, htimed.sessions, htimed.dedup⟩
    · rw [hstate]
      have hfound := h.requests found (mem_of_find?_eq_some hfind)
      exact ⟨hassigned.fileSession (hfound.assign hresponse) hrecordable, htimed.sessions,
        htimed.dedup⟩
  | error e =>
    refine settles_of_error (e := e) (by rw [StoreOp.transition, ht]; rfl) ?_
    cases hfind : findRequest state key with
    | none => exact .inr (.inr (.inl hfind))
    | some found =>
      left
      unfold updateInteractive at ht
      rw [hfind] at ht
      dsimp only at ht
      cases hid : sessionId with
      | none =>
        rw [hid] at ht
        cases ht
      | some id =>
        rw [hid] at ht
        dsimp only at ht
        split at ht
        · rcases recordSession_spec hassigned (found.assign changes) (hsession id hid) with
            ⟨state', hok⟩ | ⟨_, howner⟩
          · have hok' := hok
            unfold RouterState.assignRequest at hok'
            rw [hok'] at ht
            cases ht
          · exact ⟨id, rfl, found, hfind, howner⟩
        · cases ht

/-- Every transition of a sound state settles. -/
theorem transition_settles (h : state.Sound) (htimed : state.Timed now)
    (hnow : timestamp now = true) (hargs : op.ValidArgs state) :
    Settles state now op := by
  cases op with
  | applyEventSession input => exact applyEventSession_settles h htimed hnow hargs
  | switchKnown identity sessionId => exact switchKnown_settles h htimed hnow sessionId hargs
  | deleteKnown identity sessionId => exact deleteKnown_settles h htimed hnow sessionId hargs
  | clearCurrent identity => exact clearCurrent_settles h htimed hnow hargs
  | claimMessage runtime messageUid claimId => exact claimMessage_settles h htimed hnow hargs
  | admitMessage key claimId => exact admitMessage_settles h htimed hnow key claimId
  | releaseMessage key claimId => exact releaseMessage_settles h htimed key claimId
  | rememberInteractiveRoom identity roomId discussionId =>
    exact rememberInteractiveRoom_settles h htimed hargs
  | reserveInteractive record => exact reserveInteractive_settles h htimed hargs
  | updateInteractive key changes sessionId => exact updateInteractive_settles h htimed hargs

end ClawMessenger.Ports.SessionStore
