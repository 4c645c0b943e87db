import ClawMessenger.Ports.SessionStoreOps

/-!
# The sessions of one conversation

A conversation remembers up to 32 provider sessions, oldest first.  `Known` is
what validation asks of that list; it survives dropping sessions anywhere and
appending one that is new and not older than the rest, which is all the store
ever does to it (`acceptAuthoritative_spec`).
-/

namespace ClawMessenger.Ports.SessionStore

open Verified Verified.JsString Conversation List

/-! ## Lists of known sessions -/

structure Known (sessions : List KnownSession) : Prop where
  schema : ∀ session ∈ sessions, session.schema = true
  distinct : (sessions.map KnownSession.sessionId).Nodup
  ordered : (sessions.map KnownSession.updatedAt).Pairwise (· ≤ ·)

theorem known_nil : Known [] :=
  ⟨fun _ h => (not_mem_nil h).elim, nodup_nil, Pairwise.nil⟩

variable {sessions : List KnownSession}

theorem Known.sublist {sessions' : List KnownSession} (h : Known sessions)
    (hsub : sessions'.Sublist sessions) : Known sessions' where
  schema := fun session hmem => h.schema session (hsub.subset hmem)
  distinct := (hsub.map KnownSession.sessionId).nodup h.distinct
  ordered := h.ordered.sublist (hsub.map KnownSession.updatedAt)

variable {session : KnownSession}

/-- A new session, not older than the others. -/
theorem Known.push (h : Known sessions) (hschema : session.schema = true)
    (hnew : session.sessionId ∉ sessions.map KnownSession.sessionId)
    (htime : ∀ s ∈ sessions, s.updatedAt ≤ session.updatedAt) :
    Known (sessions ++ [session]) := by
  constructor
  · intro s hs
    rcases mem_append.mp hs with hs | hs
    · exact h.schema s hs
    · rw [mem_singleton.mp hs]
      exact hschema
  · rw [map_append, nodup_append]
    refine ⟨h.distinct, by simp, fun id hid id' hid' heq => ?_⟩
    rw [map_singleton, mem_singleton] at hid'
    exact hnew (hid' ▸ heq ▸ hid)
  · rw [map_append, pairwise_append]
    refine ⟨h.ordered, by simp, fun time htime' time' hlast => ?_⟩
    obtain ⟨s, hs, rfl⟩ := mem_map.mp htime'
    rw [map_singleton, mem_singleton] at hlast
    rw [hlast]
    exact htime s hs

/-- Once dropped, the session of an id is not in the list any more. -/
theorem Known.not_mem_eraseP (h : Known sessions) (sessionId : JsString) :
    sessionId ∉ (sessions.eraseP fun session => session.sessionId == sessionId).map
      KnownSession.sessionId := by
  intro hmem
  obtain ⟨session, hsession, hid⟩ := mem_map.mp hmem
  have hex : ∃ s ∈ sessions, (s.sessionId == sessionId) = true :=
    ⟨session, mem_of_mem_eraseP hsession, by simpa using hid⟩
  have hp : ∀ s : KnownSession, (s.sessionId == sessionId) = true → s.sessionId = sessionId := by
    intro s hs
    simpa using hs
  exact ((mem_eraseP_key_iff h.distinct hp hex).mp hsession).2 hid

/-! ## Dropping the oldest -/

/-- With more than one session there is one besides the current. -/
theorem Known.exists_ne (h : Known sessions) (current : JsString) (hlength : 1 < sessions.length) :
    (sessions.any fun session => session.sessionId != current) = true := by
  obtain ⟨a, b, rest, rfl⟩ : ∃ a b rest, sessions = a :: b :: rest := by
    match sessions, hlength with
    | a :: b :: rest, _ => exact ⟨a, b, rest, rfl⟩
  have hne : a.sessionId ≠ b.sessionId := by
    intro heq
    have hdistinct := h.distinct
    simp [heq] at hdistinct
  by_cases ha : a.sessionId = current
  · have hb : b.sessionId ≠ current := fun heq => hne (ha.trans heq.symm)
    simp [hb]
  · simp [ha]

/-- Dropping fewer sessions than there are keeps the current one. -/
theorem dropOldest_spec {current : JsString} {n : Nat} (h : Known sessions)
    (hn : n < sessions.length) (hcurrent : current ∈ sessions.map KnownSession.sessionId) :
    ∃ rest, dropOldest current n sessions = .ok rest ∧ rest.Sublist sessions ∧
      rest.length = sessions.length - n ∧ current ∈ rest.map KnownSession.sessionId := by
  induction n generalizing sessions with
  | zero => exact ⟨sessions, rfl, Sublist.refl _, by simp, hcurrent⟩
  | succ n ih =>
    have hany := h.exists_ne current (by omega)
    have hsub := eraseP_sublist (p := fun s : KnownSession => s.sessionId != current)
      (l := sessions)
    have hlength : (sessions.eraseP fun s => s.sessionId != current).length =
        sessions.length - 1 := by
      rw [length_eraseP, if_pos hany]
    have hkept : current ∈ (sessions.eraseP fun s => s.sessionId != current).map
        KnownSession.sessionId := by
      obtain ⟨session, hmem, rfl⟩ := mem_map.mp hcurrent
      exact mem_map_of_mem ((mem_eraseP_of_neg (by simp)).mpr hmem)
    obtain ⟨rest, hdrop, hrest, hlen, hmem⟩ := ih (h.sublist hsub) (by omega) hkept
    refine ⟨rest, ?_, hrest.trans hsub, by omega, hmem⟩
    rw [dropOldest, if_pos hany, hdrop]

/-! ## Accepting a session -/

/-- The list with a session moved to its end, or added there. -/
def moveToEnd (sessions : List KnownSession) (sessionId : JsString) (now : Nat) :
    List KnownSession :=
  (sessions.eraseP fun session => session.sessionId == sessionId) ++ [⟨sessionId, now⟩]

variable {sessionId : JsString} {now : Nat}

theorem Known.moveToEnd (h : Known sessions) (hid : identifier 4096 sessionId = true)
    (hnow : timestamp now = true) (htime : ∀ s ∈ sessions, s.updatedAt ≤ now) :
    Known (moveToEnd sessions sessionId now) := by
  have hsub := eraseP_sublist (p := fun s : KnownSession => s.sessionId == sessionId)
    (l := sessions)
  apply (h.sublist hsub).push
  · simp [KnownSession.schema, hid, hnow]
  · exact h.not_mem_eraseP sessionId
  · exact fun s hs => htime s (hsub.subset hs)

theorem mem_moveToEnd (h : session ∈ moveToEnd sessions sessionId now) :
    session ∈ sessions ∨ session = ⟨sessionId, now⟩ := by
  rcases mem_append.mp h with hold | hnew
  · exact .inl (mem_of_mem_eraseP hold)
  · exact .inr (mem_singleton.mp hnew)

/-- The list after an event's session was accepted. -/
structure Accepted (before after : List KnownSession) (sessionId : JsString) (now : Nat) :
    Prop where
  known : Known after
  few : after.length ≤ MAX_KNOWN_SESSIONS
  current : sessionId ∈ after.map KnownSession.sessionId
  origin : ∀ session ∈ after, session ∈ before ∨ session = ⟨sessionId, now⟩

theorem acceptAuthoritative_spec (entry : SessionEntry) (h : Known entry.knownSessions)
    (hid : identifier 4096 sessionId = true) (hnow : timestamp now = true)
    (htime : ∀ s ∈ entry.knownSessions, s.updatedAt ≤ now) :
    ∃ known, acceptAuthoritative entry sessionId now =
        .ok { entry with
          knownSessions := known
          currentSessionId := some sessionId
          updatedAt := now } ∧
      Accepted entry.knownSessions known sessionId now := by
  have hmoved := h.moveToEnd hid hnow htime
  have hcurrent : sessionId ∈
      (moveToEnd entry.knownSessions sessionId now).map KnownSession.sessionId := by
    simp [moveToEnd]
  have hdrop : (moveToEnd entry.knownSessions sessionId now).length - MAX_KNOWN_SESSIONS <
      (moveToEnd entry.knownSessions sessionId now).length := by
    rw [moveToEnd, length_append, length_singleton, MAX_KNOWN_SESSIONS]
    omega
  obtain ⟨known, hknown, hrest, hlength, hmem⟩ := dropOldest_spec hmoved hdrop hcurrent
  refine ⟨known, ?_, hmoved.sublist hrest, by omega, hmem,
    fun s hs => mem_moveToEnd (hrest.subset hs)⟩
  rw [moveToEnd] at hknown
  simp only [acceptAuthoritative, hknown]
  rfl

end ClawMessenger.Ports.SessionStore
