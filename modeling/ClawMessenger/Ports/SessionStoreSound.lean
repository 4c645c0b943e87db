import ClawMessenger.Ports.SessionStoreEffect
import ClawMessenger.Ports.SessionStoreKnown

/-!
# Sound states

`RouterState.Sound` is `validateState` without the capacities: what a state is
required to be, as opposed to how much of it there may be (`sound_iff`).  Over
it stands the purpose of half of its checks: within a runtime a provider
session belongs to at most one conversation or discussion
(`RouterState.Sound.owners`).
-/

namespace ClawMessenger.Ports.SessionStore

open Verified Verified.JsString List
open Verified.Json (parse stringify)
open Conversation Dedup

/-! ## Soundness -/

structure SessionEntry.Sound (entry : SessionEntry) : Prop where
  schema : entry.schema = true
  consistent : entry.consistent = true
  few : entry.knownSessions.length ≤ MAX_KNOWN_SESSIONS

structure InteractiveRequest.Sound (entry : InteractiveRequest) : Prop where
  schema : entry.schema = true
  consistent : entry.consistent = true

structure RouterState.Sound (state : RouterState) : Prop where
  sessions : ∀ entry ∈ state.sessions, entry.Sound
  conversations : (state.sessions.map SessionEntry.conversationKey).Nodup
  requests : ∀ entry ∈ state.interactiveRequests, entry.Sound
  requestKeys : (state.interactiveRequests.map InteractiveRequest.key).Nodup
  taskIds : (state.interactiveRequests.map InteractiveRequest.taskId).Nodup
  filed : ∀ e ∈ state.interactiveSessions.entries, identifier 4096 e.2 = true ∧
    ∃ owner, parseInteractiveSessionOwner e.1 = .ok owner
  heads : ∀ e ∈ state.interactiveHeads.entries, e.2.schema = true
  rooms : ∀ e ∈ state.interactiveRooms.entries, identifier 256 e.2 = true
  dedup : ∀ entry ∈ state.dedup, entry.schema = true ∧ dedupConsistent entry = true
  dedupKeys : (state.dedup.map DedupEntry.key).Nodup
  owners : state.sessionOwners.Nodup

variable {entry : SessionEntry} {state : RouterState}

/-- A conversation filed under its own key, with the sessions it knows. -/
theorem SessionEntry.sound_of (hidentity : validIdentity entry.toConversationIdentity = true)
    (hkey : entry.conversationKey = Conversation.conversationKey entry.toConversationIdentity)
    (hbinding : entry.bindingKey = Conversation.bindingKey entry.toBindingIdentity)
    (hknown : Known entry.knownSessions) (hfew : entry.knownSessions.length ≤ MAX_KNOWN_SESSIONS)
    (hcurrent : ∀ id ∈ entry.currentSessionId, id ∈ entry.knownSessions.map KnownSession.sessionId)
    (htime : timestamp entry.updatedAt = true) : entry.Sound := by
  obtain ⟨hruntime, hnode, htarget, hsender⟩ := validIdentity_spec hidentity
  have hcurrentId : entry.currentSessionId.all (identifier 4096) = true := by
    rw [Option.all_eq_true]
    intro id hid
    obtain ⟨session, hmem, rfl⟩ := mem_map.mp (hcurrent id hid)
    have hschema := hknown.schema session hmem
    rw [KnownSession.schema, Bool.and_eq_true] at hschema
    exact hschema.1
  have hknownAll : entry.knownSessions.all KnownSession.schema = true :=
    all_eq_true.mpr hknown.schema
  have hcontains : entry.currentSessionId.all (fun id =>
      (entry.knownSessions.map KnownSession.sessionId).contains id) = true := by
    rw [Option.all_eq_true]
    intro id hid
    rw [contains_iff_mem]
    exact hcurrent id hid
  have hkey' := conversationKey_bounded hidentity
  have hbinding' := bindingKey_bounded hidentity
  rw [← hkey] at hkey'
  rw [← hbinding] at hbinding'
  refine ⟨?_, ?_, hfew⟩
  · simp [SessionEntry.schema, hkey', hbinding', hruntime, hnode, htarget, hsender, hcurrentId,
      hknownAll, htime]
  · simp only [SessionEntry.consistent, hidentity, hkey, hbinding, beq_self_eq_true,
      hknown.distinct, hknown.ordered, hcontains, decide_true, Bool.and_self]

theorem SessionEntry.Sound.known (h : entry.Sound) :
    Known entry.knownSessions := by
  have hschema := h.schema
  have hconsistent := h.consistent
  simp only [SessionEntry.schema, SessionEntry.consistent, Bool.and_eq_true, all_eq_true,
    decide_eq_true_eq] at hschema hconsistent
  exact ⟨hschema.1.2, hconsistent.1.1.2, hconsistent.1.2⟩

theorem SessionEntry.Sound.current (h : entry.Sound) :
    ∀ id ∈ entry.currentSessionId, id ∈ entry.knownSessions.map KnownSession.sessionId := by
  have hconsistent := h.consistent
  simp only [SessionEntry.consistent, Bool.and_eq_true, Option.all_eq_true, contains_iff_mem]
    at hconsistent
  exact hconsistent.2

theorem SessionEntry.Sound.identity (h : entry.Sound) :
    validIdentity entry.toConversationIdentity = true ∧
      entry.conversationKey = Conversation.conversationKey entry.toConversationIdentity ∧
      entry.bindingKey = Conversation.bindingKey entry.toBindingIdentity := by
  have hconsistent := h.consistent
  simp only [SessionEntry.consistent, Bool.and_eq_true, beq_iff_eq] at hconsistent
  exact ⟨hconsistent.1.1.1.1.1, hconsistent.1.1.1.1.2, hconsistent.1.1.1.2⟩

/-- The conversation with other sessions, a current one among them, and a new time. -/
theorem SessionEntry.Sound.keep (h : entry.Sound) {known : List KnownSession}
    {current : Option JsString} {now : Nat} (hknown : Known known)
    (hfew : known.length ≤ MAX_KNOWN_SESSIONS)
    (hcurrent : ∀ id ∈ current, id ∈ known.map KnownSession.sessionId)
    (hnow : timestamp now = true) :
    SessionEntry.Sound
      { entry with knownSessions := known, currentSessionId := current, updatedAt := now } := by
  obtain ⟨hidentity, hkey, hbinding⟩ := h.identity
  exact SessionEntry.sound_of hidentity hkey hbinding hknown hfew hcurrent hnow

theorem createEntry_sound {identity : ConversationIdentity} {now : Nat}
    (hidentity : validIdentity identity = true) (hnow : timestamp now = true) :
    (createEntry identity now).Sound :=
  SessionEntry.sound_of hidentity rfl rfl known_nil (Nat.zero_le _) (fun _ h => by cases h) hnow

theorem toOption_isSome_iff {ε α : Type} {x : Except ε α} :
    x.toOption.isSome = true ↔ ∃ a, x = .ok a := by
  cases x with
  | error e | ok a => simp [Except.toOption]

theorem sound_iff :
    state.Sound ↔ state.schemaValues = true ∧ state.knownSizes = true ∧ state.consistent = true := by
  simp only [RouterState.schemaValues, RouterState.knownSizes, RouterState.consistent,
    Bool.and_eq_true, all_eq_true, decide_eq_true_eq, OrderedMap.values, OrderedMap.keys,
    mem_map, forall_exists_index, and_imp, forall_apply_eq_imp_iff₂, toOption_isSome_iff]
  constructor
  · intro h
    refine ⟨⟨⟨⟨⟨⟨?_, ?_⟩, ?_⟩, ?_⟩, ?_⟩, ?_⟩, ?_, ⟨⟨⟨⟨⟨⟨⟨⟨?_, ?_⟩, ?_⟩, ?_⟩, ?_⟩, ?_⟩, ?_⟩, ?_⟩, ?_⟩⟩
    · exact fun entry hentry => (h.sessions entry hentry).schema
    · exact fun entry hentry => (h.dedup entry hentry).1
    · exact fun entry hentry => (h.requests entry hentry).schema
    · exact fun e he => (h.filed e he).1
    · exact h.heads
    · exact h.rooms
    · exact fun entry hentry => (h.sessions entry hentry).few
    · exact fun entry hentry => (h.requests entry hentry).consistent
    · exact h.requestKeys
    · exact h.taskIds
    · exact fun entry hentry => (h.sessions entry hentry).consistent
    · exact h.conversations
    · exact fun e he => (h.filed e he).2
    · exact h.owners
    · exact fun entry hentry => (h.dedup entry hentry).2
    · exact h.dedupKeys
  · rintro ⟨⟨⟨⟨⟨⟨hsessions, hdedup⟩, hrequests⟩, hfiled⟩, hheads⟩, hrooms⟩, hfew,
      ⟨⟨⟨⟨⟨⟨⟨⟨hconsistent, hkeys⟩, htasks⟩, hentries⟩, hconversations⟩, hparsed⟩, howners⟩,
        hdedups⟩, hdedupKeys⟩⟩
    exact
      { sessions := fun entry hentry =>
          ⟨hsessions entry hentry, hentries entry hentry, hfew entry hentry⟩
        conversations := hconversations
        requests := fun entry hentry => ⟨hrequests entry hentry, hconsistent entry hentry⟩
        requestKeys := hkeys
        taskIds := htasks
        filed := fun e he => ⟨hfiled e he, hparsed e he⟩
        heads := hheads
        rooms := hrooms
        dedup := fun entry hentry => ⟨hdedup entry hentry, hdedups entry hentry⟩
        dedupKeys := hdedupKeys
        owners := howners }

theorem RouterState.Valid.sound (h : state.Valid) : state.Sound := by
  obtain ⟨_, ⟨hvalues, hknown, _⟩, _, hconsistent⟩ := validateState_eq_ok h
  exact sound_iff.mpr ⟨hvalues, hknown, hconsistent⟩

/-- A sound state within the capacities is valid. -/
theorem RouterState.Sound.valid (h : state.Sound) (hcollections : state.collectionSizes = true)
    (hruntimes : state.runtimeSizes = true) :
    state.Valid := by
  obtain ⟨hvalues, hknown, hconsistent⟩ := sound_iff.mp h
  simp [RouterState.Valid, validateState, hvalues, hknown, hconsistent, hcollections, hruntimes]

/-- A sound state fails validation by its capacities alone. -/
theorem RouterState.Sound.invalid (h : state.Sound) {e : RouterStateError}
    (he : validateState state = .error e) :
    state.collectionSizes = false ∨ state.runtimeSizes = false := by
  by_contra hsizes
  rw [not_or, Bool.not_eq_false, Bool.not_eq_false] at hsizes
  have hvalid : validateState state = .ok state := h.valid hsizes.1 hsizes.2
  rw [hvalid] at he
  cases he

/-! ## Owners -/

/-- Who a provider session belongs to. -/
inductive Owner where
  | conversation (key : JsString)
  | discussion (key : JsString)

/-- The conversation knows the session, or it is filed for the discussion. -/
def RouterState.Owns (state : RouterState) (runtimeId sessionId : JsString) : Owner → Prop
  | .conversation key => ∃ entry ∈ state.sessions, entry.conversationKey = key ∧
      entry.runtimeId = runtimeId ∧ sessionId ∈ entry.knownSessions.map KnownSession.sessionId
  | .discussion key => ∃ owner, (key, sessionId) ∈ state.interactiveSessions.entries ∧
      parseInteractiveSessionOwner key = .ok owner ∧ owner.runtimeId = runtimeId

theorem ownerKey_injective {runtimeId sessionId runtimeId' sessionId' : JsString}
    (h : ownerKey runtimeId sessionId = ownerKey runtimeId' sessionId') :
    runtimeId = runtimeId' ∧ sessionId = sessionId' := by
  have hdistinct : ∀ a b : JsString, (Json.arr [.str a, .str b]).Distinct := fun _ _ =>
    ⟨trivial, trivial, trivial⟩
  have heq := Json.stringify_injective (hdistinct runtimeId sessionId)
    (hdistinct runtimeId' sessionId') h
  simpa using heq

theorem interactiveOwnerKey_eq {key sessionId : JsString} {owner : InteractiveOwner}
    (h : parseInteractiveSessionOwner key = .ok owner) :
    interactiveOwnerKey (key, sessionId) = ownerKey owner.runtimeId sessionId := by
  rw [interactiveOwnerKey, h]

theorem mem_ownerKeys_iff {text : JsString} :
    text ∈ entry.ownerKeys ↔ ∃ sessionId ∈ entry.knownSessions.map KnownSession.sessionId,
      text = ownerKey entry.runtimeId sessionId := by
  simp only [SessionEntry.ownerKeys, mem_map]
  constructor
  · rintro ⟨session, hmem, rfl⟩
    exact ⟨session.sessionId, ⟨session, hmem, rfl⟩, rfl⟩
  · rintro ⟨_, ⟨session, hmem, rfl⟩, rfl⟩
    exact ⟨session, hmem, rfl⟩

end ClawMessenger.Ports.SessionStore
