import ClawMessenger.Ports.SessionStoreCalls

/-!
# What a transition can do

One lemma for each mutation of the store: if the transition returns, the state
it hands back is the old one or a named update of it, with everything that was
checked on the way.  No later proof unfolds a transition.
-/

namespace ClawMessenger.Ports.SessionStore

open Verified Verified.JsString Conversation Dedup

variable {ε α β : Type}

theorem bind_eq_ok {x : Except ε α} {f : α → Except ε β} {b : β} :
    (x >>= f) = .ok b ↔ ∃ a, x = .ok a ∧ f a = .ok b := by
  cases x with
  | error e =>
    constructor
    · intro h
      cases h
    · rintro ⟨a, h, _⟩
      cases h
  | ok a =>
    constructor
    · intro h
      exact ⟨a, rfl, h⟩
    · rintro ⟨a', h, hf⟩
      cases h
      exact hf

theorem map_eq_ok {x : Except ε α} {f : α → β} {b : β} :
    x.map f = .ok b ↔ ∃ a, x = .ok a ∧ f a = b := by
  cases x with
  | error e | ok a => simp [Except.map]

variable {identity : ConversationIdentity} {t : Transition Bool}

variable {u : Unit}

theorem checkIdentity_ok :
    checkIdentity identity = .ok u ↔ validIdentity identity = true := by
  unfold checkIdentity
  by_cases h : validIdentity identity = true
  · simp [h]
  · simp [h]

theorem checkSessionId_ok {value : JsString} :
    checkSessionId value = .ok u ↔ identifier 4096 value = true := by
  unfold checkSessionId
  by_cases h : identifier 4096 value = true
  · simp [h]
  · simp [h]

/-! ## Interactive requests -/

variable {state : RouterState} {now : Nat}

theorem rememberInteractiveRoom_ok {identity : BindingIdentity} {roomId discussionId : JsString}
    {t : Transition Unit}
    (h : rememberInteractiveRoom identity roomId discussionId state = .ok t) :
    (t.changed = false ∧ t.state = state) ∨
    (t.changed = true ∧ identifier 256 discussionId = true ∧
      state.interactiveRooms.get?
        (interactiveSessionKey identity.runtimeId identity.nodeId (js "chatroom") roomId) = none ∧
      t.state = { state with
        interactiveRooms := state.interactiveRooms.set
          (interactiveSessionKey identity.runtimeId identity.nodeId (js "chatroom") roomId)
          discussionId }) := by
  unfold rememberInteractiveRoom at h
  dsimp only at h
  split at h
  · split at h
    · cases h
      exact .inl ⟨rfl, rfl⟩
    · cases h
  · next hnone =>
      split at h
      · next hid =>
          cases h
          exact .inr ⟨rfl, hid, hnone, rfl⟩
      · cases h

/-- The state whose expired terminal records are dropped. -/
def RouterState.retaining (state : RouterState) (now : Nat) : RouterState :=
  { state with interactiveRequests := state.interactiveRequests.filter (retained now) }

variable {record : InteractiveRequest}

theorem reserveInteractive_eq (hschema : record.schema = true) :
    reserveInteractive record state now =
      (findRequest (state.retaining now) record.key).elim
        (if (state.interactiveHeads.get? record.sessionKey).any fun h => h.key == record.key then
          unchanged (state.retaining now) none
        else if record.status = .reserved ∧
            (state.interactiveHeads.get? record.sessionKey).any (behindHead record) then
          unchanged (state.retaining now) none
        else if record.expiresAt ≤ now ∨
            (state.retaining now).interactiveRequests.length ≥ MAX_INTERACTIVE ∨
            sessionBusy (state.retaining now) record then
          unchanged (state.retaining now) none
        else changedTo ((state.retaining now).pushRequest record) (some record))
        fun existing => unchanged (state.retaining now) (some existing) := by
  unfold reserveInteractive
  rw [hschema, Bool.not_true, if_neg Bool.false_ne_true]
  show _ = (findRequest { state with
    interactiveRequests := state.interactiveRequests.filter (retained now) } record.key).elim _ _
  dsimp only
  cases findRequest { state with
    interactiveRequests := state.interactiveRequests.filter (retained now) } record.key with
  | none | some existing => rfl

/-- What a granted record had to pass. -/
structure Grantable (state : RouterState) (now : Nat) (record : InteractiveRequest) : Prop where
  schema : record.schema = true
  fresh : findRequest (state.retaining now) record.key = none
  notHead : ∀ head, state.interactiveHeads.get? record.sessionKey = some head →
    head.key ≠ record.key
  ahead : record.status = .reserved → ∀ head,
    state.interactiveHeads.get? record.sessionKey = some head → behindHead record head = false
  unexpired : now < record.expiresAt
  room : (state.retaining now).interactiveRequests.length < MAX_INTERACTIVE
  idle : sessionBusy (state.retaining now) record = false

theorem reserveInteractive_ok {t : Transition (Option InteractiveRequest)}
    (h : reserveInteractive record state now = .ok t) :
    (t.changed = false ∧ t.state = state.retaining now ∧
      t.value = findRequest (state.retaining now) record.key) ∨
    (t.changed = true ∧ Grantable state now record ∧ t.value = some record ∧
      t.state = (state.retaining now).pushRequest record) := by
  by_cases hschema : record.schema = true
  · rw [reserveInteractive_eq hschema] at h
    cases hfind : findRequest (state.retaining now) record.key with
    | some existing =>
      rw [hfind] at h
      cases h
      exact .inl ⟨rfl, rfl, rfl⟩
    | none =>
      rw [hfind, Option.elim_none] at h
      split at h
      · cases h
        exact .inl ⟨rfl, rfl, rfl⟩
      · next hhead =>
          split at h
          · cases h
            exact .inl ⟨rfl, rfl, rfl⟩
          · next hahead =>
              split at h
              · cases h
                exact .inl ⟨rfl, rfl, rfl⟩
              · next hroom =>
                  cases h
                  refine .inr ⟨rfl, ⟨hschema, hfind, ?_, ?_, ?_, ?_, ?_⟩, rfl, rfl⟩
                  · intro head hget heq
                    rw [hget] at hhead
                    simp [heq] at hhead
                  · intro hstatus head hget
                    rw [hget] at hahead
                    simpa [hstatus] using hahead
                  · exact Nat.not_le.mp fun hle => hroom (.inl hle)
                  · exact Nat.not_le.mp fun hle => hroom (.inr (.inl hle))
                  · rw [← Bool.not_eq_true]
                    exact fun hbusy => hroom (.inr (.inr hbusy))
  · rw [Bool.not_eq_true] at hschema
    rw [reserveInteractive, hschema, Bool.not_false, if_pos rfl] at h
    cases h

/-- The state with the changes assigned to the record of a key. -/
def RouterState.assignRequest (state : RouterState) (key : JsString)
    (changes : InteractiveChanges) : RouterState :=
  { state with
    interactiveRequests := updateFirst (fun item => item.key == key)
      (fun item => item.assign changes) state.interactiveRequests }

/-- What a session had to pass to be filed for a record. -/
structure Recordable (state : RouterState) (entry : InteractiveRequest) (sessionId : JsString) :
    Prop where
  notOwned : ownedByOther state entry sessionId = .ok false
  notKnown : knownToConversation state entry.runtimeId sessionId = false
  valid : identifier 4096 sessionId = true

variable {sessionId : JsString}

theorem recordSession_ok {entry : InteractiveRequest} {state' : RouterState}
    (h : recordSession state entry sessionId = .ok state') :
    Recordable state entry sessionId ∧
      state' = { state with
        interactiveSessions := state.interactiveSessions.set entry.sessionKey sessionId } := by
  obtain ⟨owned, howned, h⟩ := bind_eq_ok.mp h
  cases owned with
  | true => cases h
  | false =>
    cases hknown : knownToConversation state entry.runtimeId sessionId with
    | true =>
      rw [hknown] at h
      cases h
    | false =>
      rw [hknown] at h
      obtain ⟨_, hcheck, h⟩ := bind_eq_ok.mp h
      cases h
      exact ⟨⟨howned, hknown, checkSessionId_ok.mp hcheck⟩, rfl⟩

variable {key : JsString}

theorem updateInteractive_ok {changes : InteractiveChanges} {sessionId : Option JsString}
    {t : Transition InteractiveRequest}
    (h : updateInteractive key changes sessionId state = .ok t) :
    ∃ found, findRequest state key = some found ∧ t.changed = true ∧
      t.value = found.assign changes ∧
      (t.state = state.assignRequest key changes ∨
        ∃ id head, sessionId = some id ∧
          state.interactiveHeads.get? found.sessionKey = some head ∧ head.key = key ∧
          Recordable (state.assignRequest key changes) (found.assign changes) id ∧
          t.state = { state.assignRequest key changes with
            interactiveSessions := state.interactiveSessions.set found.sessionKey id }) := by
  unfold updateInteractive at h
  cases hfind : findRequest state key with
  | none =>
    rw [hfind] at h
    cases h
  | some found =>
    rw [hfind] at h
    refine ⟨found, rfl, ?_⟩
    cases sessionId with
    | none =>
      cases h
      exact ⟨rfl, rfl, .inl rfl⟩
    | some id =>
      dsimp only at h
      split at h
      · next hhead =>
          obtain ⟨state', hrecord, h⟩ := bind_eq_ok.mp h
          obtain ⟨hrecordable, rfl⟩ := recordSession_ok hrecord
          cases h
          have hex : ∃ head, state.interactiveHeads.get? found.sessionKey = some head ∧
              head.key = key := by
            cases hget : state.interactiveHeads.get? found.sessionKey with
            | none =>
              have hget' : state.interactiveHeads.get? (found.assign changes).sessionKey =
                none := hget
              rw [hget'] at hhead
              cases hhead
            | some head =>
              have hget' : state.interactiveHeads.get? (found.assign changes).sessionKey =
                some head := hget
              rw [hget'] at hhead
              exact ⟨head, rfl, by simpa using hhead⟩
          obtain ⟨head, hget, hkey⟩ := hex
          exact ⟨rfl, rfl, .inr ⟨id, head, rfl, hget, hkey, hrecordable, rfl⟩⟩
      · cases h
        exact ⟨rfl, rfl, .inl rfl⟩

/-! ## Conversations -/

theorem clearCurrent_ok {t : Transition Unit} (h : clearCurrent identity state now = .ok t) :
    (t.changed = false ∧ t.state = state) ∨
    (t.changed = true ∧ t.state = state.updateEntry identity fun entry =>
      { entry with currentSessionId := none, updatedAt := now }) := by
  obtain ⟨_, _, h⟩ := bind_eq_ok.mp h
  split at h
  · cases h
    exact .inl ⟨rfl, rfl⟩
  · split at h
    · cases h
      exact .inl ⟨rfl, rfl⟩
    · cases h
      exact .inr ⟨rfl, rfl⟩

theorem switchKnown_ok (h : switchKnown identity sessionId state now = .ok t) :
    (t.changed = false ∧ t.state = state) ∨
    (t.changed = true ∧ (∃ entry, stateEntry state identity = some entry ∧
        sessionId ∈ entry.knownSessions.map KnownSession.sessionId) ∧
      t.state = state.updateEntry identity fun entry =>
        { entry with currentSessionId := some sessionId, updatedAt := now }) := by
  obtain ⟨_, _, h⟩ := bind_eq_ok.mp h
  cases hentry : stateEntry state identity with
  | none =>
    rw [hentry] at h
    cases h
    exact .inl ⟨rfl, rfl⟩
  | some entry =>
    rw [hentry] at h
    dsimp only at h
    split at h
    · cases h
      exact .inl ⟨rfl, rfl⟩
    · next hknown =>
        split at h
        · cases h
          exact .inl ⟨rfl, rfl⟩
        · cases h
          have hmem : sessionId ∈ entry.knownSessions.map KnownSession.sessionId := by
            simpa using hknown
          exact .inr ⟨rfl, ⟨entry, rfl, hmem⟩, rfl⟩

/-- A conversation without one of its sessions. -/
def SessionEntry.deleteSession (entry : SessionEntry) (sessionId : JsString) (now : Nat) :
    SessionEntry :=
  { entry with
    knownSessions := entry.knownSessions.eraseP fun session => session.sessionId == sessionId
    currentSessionId :=
      if entry.currentSessionId = some sessionId then none else entry.currentSessionId
    updatedAt := now }

theorem deleteKnown_ok (h : deleteKnown identity sessionId state now = .ok t) :
    (t.changed = false ∧ t.state = state) ∨
    (t.changed = true ∧
      t.state = state.updateEntry identity fun entry => entry.deleteSession sessionId now) := by
  obtain ⟨_, _, h⟩ := bind_eq_ok.mp h
  split at h
  · cases h
    exact .inl ⟨rfl, rfl⟩
  · split at h
    · cases h
      exact .inl ⟨rfl, rfl⟩
    · cases h
      exact .inr ⟨rfl, rfl⟩

/-- The state in which the conversation has an entry. -/
def RouterState.ensureEntry (state : RouterState) (identity : ConversationIdentity) (now : Nat) :
    RouterState :=
  if (stateEntry state identity).isSome then state
  else { state with sessions := state.sessions ++ [createEntry identity now] }

/-- The entry an event starts from, its unresumable session dropped. -/
def EventSession.clearedEntry (input : EventSession) (state : RouterState) (now : Nat) :
    SessionEntry :=
  let found := stateEntry state input.conversation
  let entry := found.getD (createEntry input.conversation now)
  match clearable input found with
  | some submitted => entry.clearSubmitted submitted now
  | none => entry

/-- A check made when the field is present. -/
def checkOptional {α : Type} (check : α → Except RouterStateError Unit) :
    Option α → Except RouterStateError Unit
  | some value => check value
  | none => .ok ()

theorem checkOptional_ok {check : α → Except RouterStateError Unit} {field : Option α}
    (h : checkOptional check field = .ok u) :
    ∀ value, field = some value → check value = .ok () := by
  rintro value rfl
  exact h

/-- The entry an event leaves, the authoritative session accepted. -/
def EventSession.acceptedEntry (input : EventSession) (state : RouterState) (now : Nat) :
    Except RouterStateError SessionEntry :=
  match input.authoritativeSessionId with
  | some authoritative => acceptAuthoritative (input.clearedEntry state now) authoritative now
  | none => .ok (input.clearedEntry state now)

/-- `applyEventSession` as one chain of checks. -/
theorem applyEventSession_eq (input : EventSession) (state : RouterState) (now : Nat) :
    applyEventSession input state now =
      checkIdentity input.conversation >>= fun _ =>
      checkOptional checkSessionId input.submittedResumeSessionId >>= fun _ =>
      checkOptional checkSessionId input.authoritativeSessionId >>= fun _ =>
      if (clearable input (stateEntry state input.conversation)).isNone
          && input.authoritativeSessionId.isNone then unchanged state ()
      else
        checkOptional (assertSessionAvailable state input.conversation)
          input.authoritativeSessionId >>= fun _ =>
        input.acceptedEntry state now >>= fun entry =>
        changedTo ((state.ensureEntry input.conversation now).updateEntry input.conversation
          fun _ => entry) () := by
  obtain ⟨conversation, submittedId, status, authoritativeId⟩ := input
  unfold applyEventSession RouterState.ensureEntry
  cases hfound : stateEntry state conversation <;> cases submittedId <;> cases authoritativeId <;>
    simp only [hfound, EventSession.acceptedEntry, EventSession.clearedEntry] <;> rfl

/-- What an event had to pass to change the conversation's entry. -/
structure Eventful (input : EventSession) (state : RouterState) (now : Nat)
    (entry : SessionEntry) : Prop where
  identity : validIdentity input.conversation = true
  valid : ∀ authoritative, input.authoritativeSessionId = some authoritative →
    identifier 4096 authoritative = true
  available : ∀ authoritative, input.authoritativeSessionId = some authoritative →
    assertSessionAvailable state input.conversation authoritative = .ok ()
  accepted : input.acceptedEntry state now = .ok entry

theorem applyEventSession_ok {input : EventSession} {t : Transition Unit}
    (h : applyEventSession input state now = .ok t) :
    (t.changed = false ∧ t.state = state) ∨
    (t.changed = true ∧ ∃ entry, Eventful input state now entry ∧
      t.state = (state.ensureEntry input.conversation now).updateEntry input.conversation
        fun _ => entry) := by
  rw [applyEventSession_eq] at h
  obtain ⟨_, hidentity, h⟩ := bind_eq_ok.mp h
  obtain ⟨_, _, h⟩ := bind_eq_ok.mp h
  obtain ⟨_, hcheck, h⟩ := bind_eq_ok.mp h
  split at h
  · cases h
    exact .inl ⟨rfl, rfl⟩
  · obtain ⟨_, havailable, h⟩ := bind_eq_ok.mp h
    obtain ⟨entry, haccepted, h⟩ := bind_eq_ok.mp h
    cases h
    have hvalid : ∀ authoritative, input.authoritativeSessionId = some authoritative →
        identifier 4096 authoritative = true := fun authoritative hsome =>
      checkSessionId_ok.mp (checkOptional_ok hcheck authoritative hsome)
    exact .inr ⟨rfl, entry, ⟨checkIdentity_ok.mp hidentity, hvalid,
      checkOptional_ok havailable, haccepted⟩, rfl⟩

/-! ## Messages -/

/-- The table with a claim added. -/
def RouterState.pushClaim (state : RouterState) (runtime messageUid claimId : JsString)
    (now : Nat) : RouterState :=
  { state with
    dedup := pruneDedup state.dedup now ++
      [⟨dedupKey runtime messageUid, runtime, messageUid, claimId, .claimed, now, none⟩] }

/-- What a claim had to pass. -/
structure Claimable (state : RouterState) (now : Nat) (runtime messageUid claimId : JsString) :
    Prop where
  schema : DedupEntry.schema
    ⟨dedupKey runtime messageUid, runtime, messageUid, claimId, .claimed, now, none⟩ = true
  free : ∀ e ∈ pruneDedup state.dedup now, e.key ≠ dedupKey runtime messageUid
  room : (pruneDedup state.dedup now).length < MAX_DEDUP_ENTRIES

variable {claimId : JsString}

theorem claimMessage_ok {runtime messageUid : JsString} {t : Transition ClaimResult}
    (h : claimMessage runtime messageUid claimId state now = .ok t) :
    (t.changed = false ∧ t.value = .duplicate (dedupKey runtime messageUid) ∧
      t.state = state.pruned now) ∨
    (t.changed = true ∧ t.value = .claimed (dedupKey runtime messageUid) claimId ∧
      Claimable state now runtime messageUid claimId ∧
      t.state = state.pushClaim runtime messageUid claimId now) := by
  unfold claimMessage claimDedup at h
  dsimp only at h
  by_cases hschema : DedupEntry.schema
      ⟨dedupKey runtime messageUid, runtime, messageUid, claimId, .claimed, now, none⟩ = true
  · rw [hschema, Bool.not_true, if_neg Bool.false_ne_true] at h
    by_cases hany : ((pruneDedup state.dedup now).any fun e =>
        e.key == dedupKey runtime messageUid) = true
    · rw [if_pos hany] at h
      cases h
      exact .inl ⟨rfl, rfl, rfl⟩
    · rw [if_neg hany] at h
      by_cases hfull : ((pruneDedup state.dedup now).filter fun e =>
          e.runtimeId == runtime).length ≥ MAX_DEDUP_PER_RUNTIME ∨
          (pruneDedup state.dedup now).length ≥ MAX_DEDUP_ENTRIES
      · rw [if_pos hfull] at h
        cases h
      · rw [if_neg hfull] at h
        cases h
        have hfree : ∀ e ∈ pruneDedup state.dedup now, e.key ≠ dedupKey runtime messageUid := by
          simpa using hany
        exact .inr ⟨rfl, rfl,
          ⟨hschema, hfree, Nat.not_le.mp fun hle => hfull (.inr hle)⟩, rfl⟩
  · rw [Bool.not_eq_true] at hschema
    rw [hschema, Bool.not_false, if_pos rfl] at h
    cases h

theorem admitMessage_ok (h : admitMessage key claimId state now = .ok t) :
    (t.changed = false ∧ t.state = state ∧ (t.value = true → ∃ entry,
      state.dedup.find? (fun e => e.key == key) = some entry ∧ entry.claimId = claimId ∧
        entry.state = .admitted)) ∨
    (t.changed = true ∧ t.value = true ∧ ∃ entry,
      state.dedup.find? (fun e => e.key == key) = some entry ∧ entry.claimId = claimId ∧
        entry.state = .claimed ∧
      t.state = { state with
        dedup := updateFirst (fun e => e.key == key) (fun e => e.admitted now) state.dedup }) := by
  unfold admitMessage admitDedup at h
  cases hfind : state.dedup.find? fun e => e.key == key with
  | none =>
    rw [hfind] at h
    cases h
    exact .inl ⟨rfl, rfl, fun hvalue => by cases hvalue⟩
  | some entry =>
    rw [hfind] at h
    dsimp only at h
    by_cases hid : entry.claimId = claimId
    · rw [if_neg (not_not.mpr hid)] at h
      cases hstate : entry.state with
      | admitted =>
        rw [hstate] at h
        cases h
        exact .inl ⟨rfl, rfl, fun _ => ⟨entry, rfl, hid, hstate⟩⟩
      | claimed =>
        rw [hstate] at h
        cases h
        exact .inr ⟨rfl, rfl, entry, rfl, hid, hstate, rfl⟩
    · rw [if_pos hid] at h
      cases h
      exact .inl ⟨rfl, rfl, fun hvalue => by cases hvalue⟩

theorem releaseMessage_ok (h : releaseMessage key claimId state = .ok t) :
    (t.changed = false ∧ t.value = false ∧ t.state = state) ∨
    (t.changed = true ∧ t.value = true ∧ ∃ entry,
      state.dedup.find? (fun e => e.key == key && e.claimId == claimId) = some entry ∧
        entry.state = .claimed ∧
      t.state = { state with
        dedup := state.dedup.eraseP fun e => e.key == key && e.claimId == claimId }) := by
  unfold releaseMessage releaseDedup at h
  cases hfind : state.dedup.find? fun e => e.key == key && e.claimId == claimId with
  | none =>
    rw [hfind] at h
    cases h
    exact .inl ⟨rfl, rfl, rfl⟩
  | some entry =>
    rw [hfind] at h
    cases hstate : entry.state with
    | admitted =>
      simp only [hstate] at h
      cases h
      exact .inl ⟨rfl, rfl, rfl⟩
    | claimed =>
      simp only [hstate] at h
      cases h
      exact .inr ⟨rfl, rfl, entry, rfl, hstate, rfl⟩

/-! ## Frames -/

section Frames

variable (identity : ConversationIdentity) (record : InteractiveRequest) (key : JsString)
  (changes : InteractiveChanges)

@[simp] theorem updateEntry_dedup (f : SessionEntry → SessionEntry) :
    (state.updateEntry identity f).dedup = state.dedup := rfl

@[simp] theorem updateEntry_interactiveRequests (f : SessionEntry → SessionEntry) :
    (state.updateEntry identity f).interactiveRequests = state.interactiveRequests := rfl

@[simp] theorem updateEntry_interactiveHeads (f : SessionEntry → SessionEntry) :
    (state.updateEntry identity f).interactiveHeads = state.interactiveHeads := rfl

@[simp] theorem ensureEntry_dedup : (state.ensureEntry identity now).dedup = state.dedup := by
  unfold RouterState.ensureEntry
  split <;> rfl

@[simp] theorem ensureEntry_interactiveRequests :
    (state.ensureEntry identity now).interactiveRequests = state.interactiveRequests := by
  unfold RouterState.ensureEntry
  split <;> rfl

@[simp] theorem ensureEntry_interactiveHeads :
    (state.ensureEntry identity now).interactiveHeads = state.interactiveHeads := by
  unfold RouterState.ensureEntry
  split <;> rfl

@[simp] theorem retaining_dedup : (state.retaining now).dedup = state.dedup := rfl

@[simp] theorem retaining_interactiveHeads :
    (state.retaining now).interactiveHeads = state.interactiveHeads := rfl

@[simp] theorem pushRequest_dedup : (state.pushRequest record).dedup = state.dedup := rfl

@[simp] theorem assignRequest_dedup : (state.assignRequest key changes).dedup = state.dedup := rfl

@[simp] theorem assignRequest_interactiveHeads :
    (state.assignRequest key changes).interactiveHeads = state.interactiveHeads := rfl

@[simp] theorem Transition.map_state {α β : Type} (f : α → β) (t : Transition α) :
    (t.map f).state = t.state := rfl

@[simp] theorem Transition.map_changed {α β : Type} (f : α → β) (t : Transition α) :
    (t.map f).changed = t.changed := rfl

@[simp] theorem Transition.map_value {α β : Type} (f : α → β) (t : Transition α) :
    (t.map f).value = f t.value := rfl

end Frames

/-- The operations on the deduplication table. -/
def StoreOp.isMessage : StoreOp → Bool
  | claimMessage .. | admitMessage .. | releaseMessage .. => true
  | _ => false

/-- The operations on requests and heads. -/
def StoreOp.isInteractive : StoreOp → Bool
  | reserveInteractive .. | updateInteractive .. => true
  | _ => false

variable {op : StoreOp}

section

variable {op : StoreOp} {t : Transition StoreAnswer} (h : op.transition state now = .ok t)
include h

/-- Operations on conversations leave the table, the requests and the heads alone. -/
theorem transition_session (hmessage : op.isMessage = false)
    (hinteractive : op.isInteractive = false) :
    t.state.dedup = state.dedup ∧ t.state.interactiveRequests = state.interactiveRequests ∧
      t.state.interactiveHeads = state.interactiveHeads := by
  cases op with
  | applyEventSession input =>
    obtain ⟨t', ht, rfl⟩ := map_eq_ok.mp h
    rcases applyEventSession_ok ht with ⟨_, hstate⟩ | ⟨_, _, _, hstate⟩ <;> simp [hstate]
  | switchKnown identity sessionId =>
    obtain ⟨t', ht, rfl⟩ := map_eq_ok.mp h
    rcases switchKnown_ok ht with ⟨_, hstate⟩ | ⟨_, _, hstate⟩ <;> simp [hstate]
  | deleteKnown identity sessionId =>
    obtain ⟨t', ht, rfl⟩ := map_eq_ok.mp h
    rcases deleteKnown_ok ht with ⟨_, hstate⟩ | ⟨_, hstate⟩ <;> simp [hstate]
  | clearCurrent identity =>
    obtain ⟨t', ht, rfl⟩ := map_eq_ok.mp h
    rcases clearCurrent_ok ht with ⟨_, hstate⟩ | ⟨_, hstate⟩ <;> simp [hstate]
  | rememberInteractiveRoom identity roomId discussionId =>
    obtain ⟨t', ht, rfl⟩ := map_eq_ok.mp h
    rcases rememberInteractiveRoom_ok ht with ⟨_, hstate⟩ | ⟨_, _, _, hstate⟩ <;> simp [hstate]
  | claimMessage | admitMessage | releaseMessage => cases hmessage
  | reserveInteractive | updateInteractive => cases hinteractive

/-- Operations on anything but messages leave the deduplication table alone. -/
theorem transition_dedup (hop : op.isMessage = false) :
    t.state.dedup = state.dedup := by
  cases op with
  | reserveInteractive record =>
    obtain ⟨t', ht, rfl⟩ := map_eq_ok.mp h
    rcases reserveInteractive_ok ht with ⟨_, hstate, _⟩ | ⟨_, _, _, hstate⟩ <;> simp [hstate]
  | updateInteractive key changes sessionId =>
    obtain ⟨t', ht, rfl⟩ := map_eq_ok.mp h
    obtain ⟨_, _, _, _, hstate⟩ := updateInteractive_ok ht
    rcases hstate with hstate | ⟨_, _, _, _, _, _, hstate⟩ <;> simp [hstate]
  | _ => exact (transition_session h hop rfl).1

/-- Operations on anything but interactive requests leave requests and heads alone. -/
theorem transition_interactive (hop : op.isInteractive = false) :
    t.state.interactiveRequests = state.interactiveRequests ∧
      t.state.interactiveHeads = state.interactiveHeads := by
  cases op with
  | claimMessage runtime messageUid claimId =>
    obtain ⟨t', ht, rfl⟩ := map_eq_ok.mp h
    rcases claimMessage_ok ht with ⟨_, _, hstate⟩ | ⟨_, _, _, hstate⟩ <;>
      simp [hstate, RouterState.pruned, RouterState.pushClaim]
  | admitMessage key claimId =>
    rw [StoreOp.transition] at h
    obtain ⟨t', ht, rfl⟩ := map_eq_ok.mp h
    rcases admitMessage_ok ht with ⟨_, hstate, _⟩ | ⟨_, _, _, _, _, _, hstate⟩ <;> simp [hstate]
  | releaseMessage key claimId =>
    rw [StoreOp.transition] at h
    obtain ⟨t', ht, rfl⟩ := map_eq_ok.mp h
    rcases releaseMessage_ok ht with ⟨_, _, hstate⟩ | ⟨_, _, _, _, _, hstate⟩ <;> simp [hstate]
  | _ => exact (transition_session h rfl hop).2

end

theorem pruneDedup_idem (entries : List DedupEntry) (now : Nat) :
    pruneDedup (pruneDedup entries now) now = pruneDedup entries now := by
  simp [pruneDedup]

/-- A transition on a pruned state that changes nothing keeps the table. -/
theorem unchanged_dedup {t : Transition StoreAnswer}
    (h : op.transition (state.pruned now) now = .ok t) (hchanged : t.changed = false) :
    t.state.dedup = pruneDedup state.dedup now := by
  by_cases hop : op.isMessage = true
  · cases op with
    | claimMessage runtime messageUid claimId =>
      obtain ⟨t', ht, rfl⟩ := map_eq_ok.mp h
      rcases claimMessage_ok ht with ⟨_, _, hstate⟩ | ⟨htrue, _⟩
      · simp [hstate, RouterState.pruned, pruneDedup_idem]
      · simp [htrue] at hchanged
    | admitMessage key claimId =>
      rw [StoreOp.transition] at h
      obtain ⟨t', ht, rfl⟩ := map_eq_ok.mp h
      rcases admitMessage_ok ht with ⟨_, hstate, _⟩ | ⟨htrue, _⟩
      · simp [hstate, RouterState.pruned]
      · simp [htrue] at hchanged
    | releaseMessage key claimId =>
      rw [StoreOp.transition] at h
      obtain ⟨t', ht, rfl⟩ := map_eq_ok.mp h
      rcases releaseMessage_ok ht with ⟨_, _, hstate⟩ | ⟨htrue, _⟩
      · simp [hstate, RouterState.pruned]
      · simp [htrue] at hchanged
    | _ => cases hop
  · exact transition_dedup h (Bool.not_eq_true _ ▸ hop)

end ClawMessenger.Ports.SessionStore
