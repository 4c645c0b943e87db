import ClawMessenger.Ports.SessionStoreSound

/-!
# Transitions keep a state sound

Each named update of the state, then each transition: the result is sound
whenever the state was, the arguments are what callers pass, and no time stamp
lies after the clock.  The checks a transition makes before it changes anything
are exactly what its update needs.
-/

namespace ClawMessenger.Ports.SessionStore

open Verified Verified.JsString List
open Verified.Json (parse stringify)
open Conversation Dedup

/-- No time stamp that later ones are compared with lies after the clock. -/
structure RouterState.Timed (state : RouterState) (now : Nat) : Prop where
  sessions : ∀ entry ∈ state.sessions, ∀ session ∈ entry.knownSessions, session.updatedAt ≤ now
  dedup : ∀ entry ∈ state.dedup, entry.claimedAt ≤ now

variable {state : RouterState} {now : Nat}

/-! ## Updating a conversation -/

/-- No one but the conversation owns a session under the text. -/
structure Unowned (state : RouterState) (identity : ConversationIdentity) (text : JsString) :
    Prop where
  conversations : ∀ entry ∈ state.sessions, text ∈ entry.ownerKeys →
    entry.conversationKey = conversationKey identity
  discussions : ∀ e ∈ state.interactiveSessions.entries, interactiveOwnerKey e ≠ text

variable {entry : SessionEntry}

theorem SessionEntry.Sound.ownerKeys_nodup (h : entry.Sound) :
    entry.ownerKeys.Nodup := by
  have hids := h.known.distinct
  have hmap : entry.ownerKeys =
      (entry.knownSessions.map KnownSession.sessionId).map (ownerKey entry.runtimeId) := by
    rw [SessionEntry.ownerKeys, map_map]
    rfl
  rw [hmap]
  exact hids.map fun _ _ heq => (ownerKey_injective heq).2

/-- What an update of a conversation has to respect. -/
structure KeepsEntry (state : RouterState) (identity : ConversationIdentity)
    (entry entry' : SessionEntry) : Prop where
  sound : entry'.Sound
  key : entry'.conversationKey = entry.conversationKey
  owned : ∀ text ∈ entry'.ownerKeys, text ∈ entry.ownerKeys ∨ Unowned state identity text

variable {identity : ConversationIdentity} {f : SessionEntry → SessionEntry}

theorem RouterState.Sound.updateEntry (h : state.Sound)
    (hf : ∀ entry, stateEntry state identity = some entry → KeepsEntry state identity entry (f entry)) :
    (state.updateEntry identity f).Sound := by
  cases hfind : stateEntry state identity with
  | none =>
    have hsame : state.updateEntry identity f = state := by
      rw [RouterState.updateEntry, updateFirst_of_find?_none hfind]
    rw [hsame]
    exact h
  | some entry =>
    obtain ⟨hsound, hkey, howned⟩ := hf entry hfind
    obtain ⟨pre, post, hsplit, hupdate⟩ := updateFirst_split (f := f) hfind
    have hentryKey : entry.conversationKey = conversationKey identity := by
      simpa using find?_some hfind
    have hothers : ∀ other ∈ pre ++ post,
        other ∈ state.sessions ∧ other.conversationKey ≠ conversationKey identity := by
      have hnd := h.conversations
      rw [hsplit, map_append, map_cons, nodup_middle, nodup_cons,
        ← map_append] at hnd
      intro other hother
      constructor
      · rw [hsplit]
        rcases mem_append.mp hother with hpre | hpost
        · exact mem_append_left _ hpre
        · exact mem_append_right _ (mem_cons_of_mem _ hpost)
      · intro heq
        exact hnd.1 (mem_map.mpr ⟨other, hother, heq.trans hentryKey.symm⟩)
    have hfree : ∀ text ∈ (f entry).ownerKeys, ∀ other ∈ pre ++ post, text ∈ other.ownerKeys →
        text ∈ entry.ownerKeys := by
      intro text htext other hother hmem
      rcases howned text htext with hold | hunowned
      · exact hold
      · obtain ⟨hin, hne⟩ := hothers other hother
        exact absurd (hunowned.conversations other hin hmem) hne
    have hsessions : (state.updateEntry identity f).sessions = pre ++ f entry :: post := hupdate
    have hrest : (state.updateEntry identity f).interactiveSessions =
      state.interactiveSessions := rfl
    have howners := h.owners
    rw [RouterState.sessionOwners, hsplit, flatMap_append, flatMap_cons,
      nodup_append, nodup_append, nodup_append] at howners
    obtain ⟨⟨hpre, ⟨hentry, hpost, hentryPost⟩, hpreRest⟩, hinteractive, hcross⟩ := howners
    refine { h with sessions := ?_, conversations := ?_, owners := ?_ }
    · intro other hother
      rw [hsessions] at hother
      rcases mem_append.mp hother with hother | hother
      · exact h.sessions other (hothers other (mem_append_left _ hother)).1
      · rcases mem_cons.mp hother with rfl | hother
        · exact hsound
        · exact h.sessions other (hothers other (mem_append_right _ hother)).1
    · have hkeys : (state.updateEntry identity f).sessions.map SessionEntry.conversationKey =
          state.sessions.map SessionEntry.conversationKey := by
        rw [hsessions, hsplit]
        simp [hkey]
      rw [hkeys]
      exact h.conversations
    · rw [RouterState.sessionOwners, hsessions, hrest, flatMap_append, flatMap_cons,
        nodup_append, nodup_append, nodup_append]
      refine ⟨⟨hpre, ⟨hsound.ownerKeys_nodup, hpost, ?_⟩, ?_⟩, hinteractive, ?_⟩
      · intro text htext text' htext' heq
        subst heq
        obtain ⟨other, hother, hmem⟩ := mem_flatMap.mp htext'
        have hold := hfree text htext other (mem_append_right _ hother) hmem
        exact hentryPost text hold text htext' rfl
      · intro text htext text' htext' heq
        subst heq
        rcases mem_append.mp htext' with hnew | hafter
        · obtain ⟨other, hother, hmem⟩ := mem_flatMap.mp htext
          have hold := hfree text hnew other (mem_append_left _ hother) hmem
          exact hpreRest text htext text (mem_append_left _ hold) rfl
        · exact hpreRest text htext text (mem_append_right _ hafter) rfl
      · intro text htext text' htext' heq
        subst heq
        rcases mem_append.mp htext with hbefore | htext
        · exact hcross text (mem_append_left _ hbefore) text htext' rfl
        · rcases mem_append.mp htext with hnew | hafter
          · rcases howned text hnew with hold | hunowned
            · exact hcross text (mem_append_right _ (mem_append_left _ hold)) text
                htext' rfl
            · obtain ⟨e, he, htext''⟩ := mem_map.mp htext'
              exact hunowned.discussions e he htext''
          · exact hcross text (mem_append_right _ (mem_append_right _ hafter)) text
              htext' rfl

/-- Dropping sessions keeps an entry, whatever becomes of the rest. -/
theorem KeepsEntry.of_sublist (h : entry.Sound) {known : List KnownSession}
    {current : Option JsString} (hsub : known.Sublist entry.knownSessions)
    (hcurrent : ∀ id ∈ current, id ∈ known.map KnownSession.sessionId)
    (hnow : timestamp now = true) :
    KeepsEntry state identity entry
      { entry with knownSessions := known, currentSessionId := current, updatedAt := now } where
  sound := h.keep (h.known.sublist hsub) (hsub.length_le.trans h.few) hcurrent hnow
  key := rfl
  owned := fun _ htext => .inl ((hsub.map _).subset htext)

theorem RouterState.Timed.updateEntry (h : state.Timed now)
    (hf : ∀ entry, stateEntry state identity = some entry → ∀ session ∈ (f entry).knownSessions, session ∈ entry.knownSessions ∨ session.updatedAt ≤ now) :
    (state.updateEntry identity f).Timed now := by
  refine ⟨fun entry hentry session hsession => ?_, h.dedup⟩
  rcases mem_updateFirst hentry with hentry | ⟨old, hold, rfl⟩
  · exact h.sessions entry hentry session hsession
  · rcases hf old hold session hsession with hmem | hle
    · exact h.sessions old (mem_of_find?_eq_some hold) session hmem
    · exact hle

/-! ## Who owns a session -/

/-- A search in which no test fails is an ordinary search. -/
theorem anyM_eq_any {ε α : Type} {f : α → Except ε Bool} {p : α → Bool} {l : List α}
    (h : ∀ a ∈ l, f a = .ok (p a)) : l.anyM f = .ok (l.any p) := by
  induction l with
  | nil => rfl
  | cons a rest ih =>
    have hrest := ih fun b hb => h b (mem_cons_of_mem _ hb)
    rw [anyM, h a (mem_cons_self ..), any_cons]
    cases hp : p a with
    | true => rfl
    | false => exact hrest

variable {runtimeId sessionId : JsString}

theorem mem_ownerKeys_ownerKey :
    ownerKey runtimeId sessionId ∈ entry.ownerKeys ↔ entry.runtimeId = runtimeId ∧
      sessionId ∈ entry.knownSessions.map KnownSession.sessionId := by
  rw [mem_ownerKeys_iff]
  constructor
  · rintro ⟨sessionId', hmem, heq⟩
    obtain ⟨hruntime, rfl⟩ := ownerKey_injective heq
    exact ⟨hruntime.symm, hmem⟩
  · rintro ⟨rfl, hmem⟩
    exact ⟨sessionId, hmem, rfl⟩

variable {e : JsString × JsString}

/-- Whether a filed session has an owner text is decided by its session and its owner's
runtime. -/
theorem RouterState.Sound.interactiveOwnerKey_beq (h : state.Sound)
    (he : e ∈ state.interactiveSessions.entries) (runtimeId sessionId : JsString) :
    (if e.2 == sessionId then do
        let owner ← parseInteractiveSessionOwner e.1
        return owner.runtimeId == runtimeId
      else return false) =
      (.ok (interactiveOwnerKey e == ownerKey runtimeId sessionId) :
        Except RouterStateError Bool) := by
  obtain ⟨_, owner, howner⟩ := h.filed e he
  rw [interactiveOwnerKey_eq howner, howner]
  by_cases hsession : e.2 = sessionId
  · rw [if_pos (by simpa using hsession), hsession]
    have hiff : (ownerKey owner.runtimeId sessionId == ownerKey runtimeId sessionId) =
        (owner.runtimeId == runtimeId) := by
      rw [Bool.eq_iff_iff, beq_iff_eq, beq_iff_eq]
      exact ⟨fun heq => (ownerKey_injective heq).1, fun heq => by rw [heq]⟩
    rw [hiff]
    rfl
  · have hne : (ownerKey owner.runtimeId e.2 == ownerKey runtimeId sessionId) = false := by
      rw [beq_eq_false_iff_ne]
      exact fun heq => hsession (ownerKey_injective heq).2
    rw [if_neg (by simpa using hsession), hne]
    rfl

theorem RouterState.Sound.owns_discussion (h : state.Sound)
    (he : e ∈ state.interactiveSessions.entries)
    (hkey : interactiveOwnerKey e = ownerKey runtimeId sessionId) :
    state.Owns runtimeId sessionId (.discussion e.1) := by
  obtain ⟨_, owner, howner⟩ := h.filed e he
  rw [interactiveOwnerKey_eq howner] at hkey
  obtain ⟨hruntime, rfl⟩ := ownerKey_injective hkey
  exact ⟨owner, he, howner, hruntime⟩

/-- In a sound state the two searches of `assertSessionAvailable` do not fail. -/
theorem assertSessionAvailable_eq (h : state.Sound) (identity : ConversationIdentity)
    (sessionId : JsString) :
    assertSessionAvailable state identity sessionId =
      if (state.interactiveSessions.entries.any fun e =>
          interactiveOwnerKey e == ownerKey identity.runtimeId sessionId)
        || state.sessions.any fun entry =>
          entry.runtimeId == identity.runtimeId && entry.conversationKey != conversationKey identity
            && entry.knownSessions.any fun session => session.sessionId == sessionId then
        .error .sessionConflict
      else .ok () := by
  have hany := anyM_eq_any fun e he => h.interactiveOwnerKey_beq he identity.runtimeId sessionId
  unfold assertSessionAvailable
  rw [hany]
  cases hfiled : state.interactiveSessions.entries.any fun e =>
      interactiveOwnerKey e == ownerKey identity.runtimeId sessionId with
  | true => rfl
  | false =>
    cases hknown : state.sessions.any fun entry =>
        entry.runtimeId == identity.runtimeId && entry.conversationKey != conversationKey identity
          && entry.knownSessions.any fun session => session.sessionId == sessionId with
    | true => rfl
    | false => rfl

/-- The session is available, or someone else owns it. -/
theorem assertSessionAvailable_spec (h : state.Sound) (identity : ConversationIdentity)
    (sessionId : JsString) :
    (assertSessionAvailable state identity sessionId = .ok () ∧
      Unowned state identity (ownerKey identity.runtimeId sessionId)) ∨
    (assertSessionAvailable state identity sessionId = .error .sessionConflict ∧
      ∃ owner, owner ≠ .conversation (conversationKey identity) ∧
        state.Owns identity.runtimeId sessionId owner) := by
  rw [assertSessionAvailable_eq h]
  by_cases hfiled : (state.interactiveSessions.entries.any fun e =>
      interactiveOwnerKey e == ownerKey identity.runtimeId sessionId) = true
  · obtain ⟨e, he, heq⟩ := any_eq_true.mp hfiled
    rw [hfiled, Bool.true_or, if_pos rfl]
    refine .inr ⟨rfl, .discussion e.1, (fun hd => by cases hd), ?_⟩
    exact h.owns_discussion he (by simpa using heq)
  · by_cases hknown : (state.sessions.any fun entry =>
        entry.runtimeId == identity.runtimeId && entry.conversationKey != conversationKey identity
          && entry.knownSessions.any fun session => session.sessionId == sessionId) = true
    · obtain ⟨entry, hentry, hsession⟩ := any_eq_true.mp hknown
      rw [hknown, Bool.or_true, if_pos rfl]
      simp only [Bool.and_eq_true, beq_iff_eq, bne_iff_ne, any_eq_true] at hsession
      obtain ⟨⟨hruntime, hkey⟩, session, hmem, rfl⟩ := hsession
      refine .inr ⟨rfl, .conversation entry.conversationKey, ?_, entry, hentry, rfl, hruntime,
        mem_map_of_mem hmem⟩
      exact fun heq => hkey (Owner.conversation.inj heq)
    · rw [Bool.not_eq_true] at hfiled hknown
      rw [hfiled, hknown, Bool.or_self, if_neg Bool.false_ne_true]
      refine .inl ⟨rfl, fun entry hentry htext => ?_, fun e he heq => ?_⟩
      · obtain ⟨hruntime, hmem⟩ := mem_ownerKeys_ownerKey.mp htext
        obtain ⟨session, hsession, rfl⟩ := mem_map.mp hmem
        by_contra hkey
        have hfalse := any_eq_false.mp hknown entry hentry
        apply hfalse
        simp only [Bool.and_eq_true, beq_iff_eq, bne_iff_ne, any_eq_true]
        exact ⟨⟨hruntime, hkey⟩, session, hsession, rfl⟩
      · have hfalse := any_eq_false.mp hfiled e he
        exact hfalse (by simpa using heq)

/-- The session is no one else's, or someone else owns it. -/
theorem ownedByOther_spec (h : state.Sound) (entry : InteractiveRequest) (sessionId : JsString) :
    (ownedByOther state entry sessionId = .ok false ∧
      ∀ e ∈ state.interactiveSessions.entries, e.1 ≠ entry.sessionKey →
        interactiveOwnerKey e ≠ ownerKey entry.runtimeId sessionId) ∨
    (ownedByOther state entry sessionId = .ok true ∧
      ∃ owner, owner ≠ .discussion entry.sessionKey ∧
        state.Owns entry.runtimeId sessionId owner) := by
  have hany : ownedByOther state entry sessionId =
      .ok (state.interactiveSessions.entries.any fun e =>
        e.1 != entry.sessionKey
          && interactiveOwnerKey e == ownerKey entry.runtimeId sessionId) := by
    apply anyM_eq_any
    intro e he
    have hspec := h.interactiveOwnerKey_beq he entry.runtimeId sessionId
    by_cases hkey : e.1 = entry.sessionKey
    · simp [hkey]
      rfl
    · have hne : (e.1 != entry.sessionKey) = true := by simpa using hkey
      rw [hne, Bool.and_true, Bool.true_and]
      exact hspec
  rw [hany]
  by_cases howned : (state.interactiveSessions.entries.any fun e => e.1 != entry.sessionKey
      && interactiveOwnerKey e == ownerKey entry.runtimeId sessionId) = true
  · obtain ⟨e, he, heq⟩ := any_eq_true.mp howned
    rw [Bool.and_eq_true, bne_iff_ne, beq_iff_eq] at heq
    rw [howned]
    refine .inr ⟨rfl, .discussion e.1, ?_, h.owns_discussion he heq.2⟩
    exact fun hd => heq.1 (Owner.discussion.inj hd)
  · rw [Bool.not_eq_true] at howned
    rw [howned]
    refine .inl ⟨rfl, fun e he hkey heq => ?_⟩
    have hfalse := any_eq_false.mp howned e he
    apply hfalse
    rw [Bool.and_eq_true, bne_iff_ne, beq_iff_eq]
    exact ⟨hkey, heq⟩

end ClawMessenger.Ports.SessionStore
