import ClawMessenger.Ports.ChatResumePointer
import ClawMessenger.Verified.SqlLike

/-!
# The queries that pick a session to resume

`GetLastTaskSession` and `GetLastChatTaskSession` of `server/pkg/db/queries` judge every
session of an issue or a chat by its latest ended task and return the newest session that is
left.  For a failed task they repeat, in SQL, the rule of `ResumeUnsafeFailure`.

Both are one query (`lastSession`) over their own rows, their own clock and their own rule.
What they return of a session that nothing else excludes is `lastSession_iff`;
`guards_agree_iff` compares it with the rule in Go.  The queries refuse more than that rule:
an underscore of `ILIKE '%invalid_request_error%'` stands for any character, a failed row that
tells of a resume too long excludes itself by time, and one of the two queries knows an error
about images.

Missing times sort first where the order is descending.  How the database folds letters is a
parameter (`Collation`), of which only the folding of ASCII texts is known.
-/

namespace ClawMessenger.Ports.ResumeQueries

open Verified
open ChatResumePointer (SessionId Status contains toLower foldCase emptyContent
  historyMessageLocator resumeUnsafeFailure resumeUnsafeFailureReason authMethodUnresolved unresumableHistory)

/-! ## Rows -/

/-- A row of `agent_task_queue`. -/
structure TaskRow where
  agentId : Nat
  issueId : Option Nat
  chatSessionId : Option Nat
  channelContextRevision : Option Int
  runtimeId : Nat
  status : Status
  createdAt : Nat
  dispatchedAt : Option Nat
  startedAt : Option Nat
  completedAt : Option Nat
  sessionId : Option SessionId
  workDir : Option String
  retiredSessionId : Option SessionId
  failureReason : Option String
  error : Option String
  deriving DecidableEq, Repr

namespace TaskRow

/-- `COALESCE(completed_at, started_at, dispatched_at, created_at)` -/
def terminalAt (r : TaskRow) : Option Nat :=
  ((r.completedAt.or r.startedAt).or r.dispatchedAt).or (some r.createdAt)

def reason (r : TaskRow) : String := r.failureReason.getD ""

def errorText (r : TaskRow) : String := r.error.getD ""

def ended (r : TaskRow) : Bool := r.status == .completed || r.status == .failed || r.status == .cancelled

end TaskRow

/-! ## The rules of the queries -/

def Ascii (text : List Char) : Prop := ∀ c ∈ text, c.toNat < 128

/-- How the database folds letters, for `ILIKE` and for `~*`: ASCII texts as Go does. -/
structure Collation where
  lower : List Char → List Char
  fold : List Char → List Char
  lower_ascii : ∀ text, Ascii text → lower text = toLower text
  fold_ascii : ∀ text, Ascii text → fold text = foldCase text

section Rules

variable (pg : Collation)

/-- `error ILIKE pattern`; the patterns are in lower case. -/
def ilike (error pattern : String) : Bool := SqlLike.like pattern.toList (pg.lower error.toList)

def badRequest (error : String) : Bool :=
  ilike pg error "%400%" && ilike pg error "%invalid_request_error%"

def badImage (error : String) : Bool :=
  ilike pg error "%image dimensions exceed max allowed size%" &&
    ilike pg error "%image.source.base64.data%"

def badAuth (error : String) : Bool := ilike pg error "%could not resolve authentication method%"

/-- The two `~*` conditions, whose patterns are those of `UnresumableHistory`. -/
def emptyMessage (error : String) : Bool :=
  emptyContent (pg.fold error.toList) && historyMessageLocator (pg.fold error.toList)

def chatSafe (reason error : String) : Bool :=
  !(["iteration_limit", "agent_fallback_message", "api_invalid_request", "codex_semantic_inactivity",
      "agent_error.context_overflow", "codex_resume_oversized"].contains reason) &&
    !badRequest pg error && !badAuth pg error && !emptyMessage pg error

def taskSafe (reason error : String) : Bool := chatSafe pg reason error && !badImage pg error

def overflowText (error : String) : Bool :=
  ilike pg error "%thread/resume failed%" && ilike pg error "%token too long%"

/-- The failures that `resume_overflow_at` counts. -/
def TaskRow.overflowed (r : TaskRow) : Bool :=
  r.status == .failed && (r.reason = "codex_resume_oversized" || overflowText pg r.errorText)

end Rules

/-! ## The query -/

/-- `a` comes before `b` in a descending order. -/
def later : Option Nat → Option Nat → Bool
  | none, some _ => true
  | some a, some b => b < a
  | _, none => false

/-- The first row in the descending order of `clock`. -/
def newest (clock : TaskRow → Option Nat) : List TaskRow → Option TaskRow
  | [] => none
  | r :: rest =>
    match newest clock rest with
    | none => some r
    | some q => if later (clock q) (clock r) then some q else some r

section Query

variable (pg : Collation) (own : TaskRow → Bool) (clock : TaskRow → Option Nat)
  (safe : String → String → Bool)

section

variable (rows : List TaskRow)

def retiredSessions : List SessionId := (rows.filter own).filterMap TaskRow.retiredSessionId

def resumeOverflowAt : Option Nat :=
  ((rows.filter fun r => own r && r.overflowed pg).filterMap clock).max?

/-- `DISTINCT ON (session_id)` -/
def latestPerSession : List TaskRow :=
  (rows.filterMap TaskRow.sessionId).dedup.filterMap fun s =>
    newest clock (rows.filter fun r => own r && r.ended && r.sessionId == some s)

def eligible (r : TaskRow) : Bool :=
  (r.sessionId.all fun s => !(retiredSessions own rows).contains s) &&
    (r.status == .completed || r.status == .cancelled || r.status == .failed && safe r.reason r.errorText) &&
    (match resumeOverflowAt pg own clock rows with
    | none => true
    | some at' => (clock r).any fun t => at' < t)

def lastSession : Option (Option SessionId × Option String × Nat) :=
  (newest clock ((latestPerSession own clock rows).filter (eligible pg own clock safe rows))).map fun r =>
    (r.sessionId, r.workDir, r.runtimeId)

end

end Query

def ofIssue (agentId issueId : Nat) (r : TaskRow) : Bool := r.agentId == agentId && r.issueId == some issueId

def getLastTaskSession (pg : Collation) (agentId issueId : Nat) :
    List TaskRow → Option (Option SessionId × Option String × Nat) :=
  lastSession pg (ofIssue agentId issueId) TaskRow.terminalAt (taskSafe pg)

def ofChat (chatSessionId : Nat) (channelContextRevision : Option Int) (r : TaskRow) : Bool :=
  r.chatSessionId == some chatSessionId &&
    channelContextRevision.all fun revision => r.channelContextRevision.getD 1 == revision

def getLastChatTaskSession (pg : Collation) (chatSessionId : Nat) (channelContextRevision : Option Int) :
    List TaskRow → Option (Option SessionId × Option String × Nat) :=
  lastSession pg (ofChat chatSessionId channelContextRevision) TaskRow.completedAt (chatSafe pg)

/-! ## The newest row -/

theorem later_asymm {a b : Option Nat} (h : later a b = true) : later b a = false := by
  cases a <;> cases b <;> simp [later] at h ⊢
  omega

variable {clock : TaskRow → Option Nat} {rows : List TaskRow} {r : TaskRow}

theorem newest_mem (h : newest clock rows = some r) : r ∈ rows := by
  induction rows generalizing r with
  | nil => cases h
  | cons first rest ih =>
    rw [newest] at h
    cases hrest : newest clock rest with
    | none =>
      rw [hrest] at h
      cases h
      exact List.mem_cons_self
    | some q =>
      rw [hrest] at h
      dsimp only at h
      split at h
      · cases h
        exact List.mem_cons_of_mem _ (ih hrest)
      · cases h
        exact List.mem_cons_self

/-- A row that is later than every other one is the newest. -/
theorem newest_eq (hmem : r ∈ rows)
    (hlater : ∀ q ∈ rows, q ≠ r → later (clock r) (clock q) = true) :
    newest clock rows = some r := by
  induction rows with
  | nil => cases hmem
  | cons first rest ih =>
    have hrest := fun q hq => hlater q (List.mem_cons_of_mem first hq)
    rw [newest]
    by_cases hin : r ∈ rest
    · rw [ih hin hrest]
      dsimp only
      by_cases hfirst : first = r
      · rw [hfirst, ite_self]
      · rw [if_pos (hlater first List.mem_cons_self hfirst)]
    · have hfirst : r = first := by
        cases List.mem_cons.mp hmem with
        | inl heq => exact heq
        | inr hmem => exact absurd hmem hin
      cases hnewest : newest clock rest with
      | none => rw [hfirst]
      | some q =>
        have hq := newest_mem hnewest
        have hne : q ≠ r := fun heq => hin (heq ▸ hq)
        have hbefore := later_asymm (hrest q hq hne)
        dsimp only
        rw [← hfirst, hbefore, if_neg Bool.false_ne_true]

/-! ## A session that nothing else excludes -/

/-- `r` is a failed row, newer than every other ended row with a session, whose session no row
retired and which is newer than every other overflow. -/
structure NothingElse (pg : Collation) (own : TaskRow → Bool) (clock : TaskRow → Option Nat)
    (rows : List TaskRow) (r : TaskRow) (s : SessionId) : Prop where
  mem : r ∈ rows
  owned : own r = true
  failed : r.status = .failed
  session : r.sessionId = some s
  timed : (clock r).isSome = true
  newer : ∀ q ∈ rows, own q = true → q.ended = true → q.sessionId.isSome = true → q ≠ r →
    later (clock r) (clock q) = true
  kept : ∀ q ∈ rows, own q = true → q.retiredSessionId ≠ some s
  after : ∀ q ∈ rows, own q = true → q.overflowed pg = true → q ≠ r → ∀ t ∈ clock q, ∀ t' ∈ clock r, t < t'

/-- The session is not the one that the query returns. -/
def Refuses (answer : Option (Option SessionId × Option String × Nat)) (s : SessionId) : Prop :=
  ∀ found, answer = some found → found.1 ≠ some s

section NothingElse

variable {pg : Collation} {own : TaskRow → Bool} {clock : TaskRow → Option Nat}
  {safe : String → String → Bool} {rows : List TaskRow} {r q : TaskRow} {s : SessionId}

theorem mem_latestPerSession (h : q ∈ latestPerSession own clock rows) :
    q ∈ rows ∧ own q = true ∧ q.ended = true ∧
      ∃ s, q.sessionId = some s ∧ newest clock (rows.filter fun r => own r && r.ended && r.sessionId == some s) = some q := by
  obtain ⟨s, _, hnewest⟩ := List.mem_filterMap.mp h
  have hmem := List.mem_filter.mp (newest_mem hnewest)
  rw [Bool.and_eq_true, Bool.and_eq_true, beq_iff_eq] at hmem
  exact ⟨hmem.1, hmem.2.1.1, hmem.2.1.2, s, hmem.2.2, hnewest⟩

section

variable (h : NothingElse pg own clock rows r s)
include h

theorem NothingElse.ended : r.ended = true := by
  rw [TaskRow.ended, h.failed]
  rfl

/-- The row stands for its session. -/
theorem NothingElse.newest_session :
    newest clock (rows.filter fun r => own r && r.ended && r.sessionId == some s) = some r := by
  apply newest_eq
  · rw [List.mem_filter, h.owned, h.ended, h.session]
    exact ⟨h.mem, by simp⟩
  · intro q hq hne
    have hmem := List.mem_filter.mp hq
    rw [Bool.and_eq_true, Bool.and_eq_true, beq_iff_eq] at hmem
    exact h.newer q hmem.1 hmem.2.1.1 hmem.2.1.2 (by rw [hmem.2.2]; rfl) hne

theorem NothingElse.latest : r ∈ latestPerSession own clock rows :=
  List.mem_filterMap.mpr
    ⟨s, List.mem_dedup.mpr (List.mem_filterMap.mpr ⟨r, h.mem, h.session⟩), h.newest_session⟩

/-- The only overflow that can exclude the row is its own. -/
theorem NothingElse.after_overflow :
    (match resumeOverflowAt pg own clock rows with
    | none => true
    | some at' => (clock r).any fun t => at' < t) = !r.overflowed pg := by
  obtain ⟨t, ht⟩ := Option.isSome_iff_exists.mp h.timed
  have hcounted : ∀ at' ∈ (rows.filter fun r => own r && r.overflowed pg).filterMap clock,
      ∃ q ∈ rows, own q = true ∧ q.overflowed pg = true ∧ clock q = some at' := by
    intro at' hat
    obtain ⟨q, hq, hclock⟩ := List.mem_filterMap.mp hat
    have hmem := List.mem_filter.mp hq
    rw [Bool.and_eq_true] at hmem
    exact ⟨q, hmem.1, hmem.2.1, hmem.2.2, hclock⟩
  rw [resumeOverflowAt, ht]
  cases hover : r.overflowed pg with
  | false =>
    cases hmax : ((rows.filter fun r => own r && r.overflowed pg).filterMap clock).max? with
    | none => rfl
    | some at' =>
      obtain ⟨q, hq, hown, hoverq, hclock⟩ := hcounted at' (List.max?_mem hmax)
      have hne : q ≠ r := by
        intro heq
        rw [heq, hover] at hoverq
        cases hoverq
      exact decide_eq_true (h.after q hq hown hoverq hne at' hclock t ht)
  | true =>
    have hmem : t ∈ (rows.filter fun r => own r && r.overflowed pg).filterMap clock := by
      apply List.mem_filterMap.mpr
      exact ⟨r, List.mem_filter.mpr ⟨h.mem, by rw [h.owned, hover]; rfl⟩, ht⟩
    cases hmax : ((rows.filter fun r => own r && r.overflowed pg).filterMap clock).max? with
    | none =>
      rw [List.max?_eq_none_iff.mp hmax] at hmem
      cases hmem
    | some at' =>
      have hle := (List.max?_eq_some_iff.mp hmax).2 t hmem
      exact decide_eq_false (Nat.not_lt.mpr hle)

theorem NothingElse.eligible_eq :
    eligible pg own clock safe rows r = (safe r.reason r.errorText && !r.overflowed pg) := by
  have hkept : (retiredSessions own rows).contains s = false := by
    rw [Bool.eq_false_iff]
    intro hin
    obtain ⟨q, hq, hretired⟩ := List.mem_filterMap.mp (List.contains_iff_mem.mp hin)
    exact h.kept q (List.mem_of_mem_filter hq) (List.mem_filter.mp hq).2 hretired
  rw [eligible, h.after_overflow, h.session, Option.all_some, hkept, h.failed]
  rfl

/-- Such a session is returned exactly where its row is eligible. -/
theorem lastSession_iff :
    Refuses (lastSession pg own clock safe rows) s ↔ (safe r.reason r.errorText && !r.overflowed pg) = false := by
  constructor
  · intro hrefuses
    by_contra hsafe
    have heligible : eligible pg own clock safe rows r = (safe r.reason r.errorText && !r.overflowed pg) := h.eligible_eq
    rw [Bool.eq_true_of_not_eq_false hsafe] at heligible
    have hmem :=
      List.mem_filter.mpr ⟨h.latest, heligible⟩
    have hnewest : newest clock ((latestPerSession own clock rows).filter (eligible pg own clock safe rows)) = some r := by
      apply newest_eq hmem
      intro q hq hne
      obtain ⟨hrow, hown, hended, s', hs', _⟩ := mem_latestPerSession (List.mem_of_mem_filter hq)
      exact h.newer q hrow hown hended (by rw [hs']; rfl) hne
    apply hrefuses (r.sessionId, r.workDir, r.runtimeId)
    · rw [lastSession, hnewest]
      rfl
    · exact h.session
  · intro hunsafe found hfound hsession
    obtain ⟨q, hq, rfl⟩ := Option.map_eq_some_iff.mp hfound
    have hmem := List.mem_filter.mp (newest_mem hq)
    obtain ⟨_, _, _, s', hs', hnewest⟩ := mem_latestPerSession hmem.1
    have hsame : s' = s := by
      rw [← Option.some_inj, ← hs']
      exact hsession
    rw [hsame, h.newest_session, Option.some_inj] at hnewest
    rw [← hnewest, h.eligible_eq, hunsafe] at hmem
    exact Bool.false_ne_true hmem.2

end

end NothingElse

/-! ## The rule in Go and the queries -/

section Texts

variable (pg : Collation)

theorem ilike_word {word : String} {pattern : String} (hpattern : pattern.toList = '%' :: (word.toList ++ ['%']))
    (hpercent : '%' ∉ word.toList) (hunderscore : '_' ∉ word.toList) (error : String) :
    ilike pg error pattern = contains word (pg.lower error.toList) := by
  rw [ilike, hpattern, SqlLike.like_between hpercent, contains]
  apply congrArg
  funext rest
  rw [SqlLike.starts_eq_isPrefixOf hunderscore, Bool.and_true]

variable {error : String}

/-- The words of a bad request, underscores and all, are found by the pattern too. -/
theorem badRequest_of_contains (hcode : contains "400" (pg.lower error.toList) = true)
    (hword : contains "invalid_request_error" (pg.lower error.toList) = true) :
    badRequest pg error = true := by
  have hpattern : "%invalid_request_error%".toList = '%' :: ("invalid_request_error".toList ++ ['%']) := by decide
  have hcode' : ilike pg error "%400%" = contains "400" (pg.lower error.toList) :=
    ilike_word pg (by decide) (by decide) (by decide) error
  rw [badRequest, hcode', hcode, Bool.true_and, ilike, hpattern, SqlLike.like_between (by decide), List.any_eq_true]
  obtain ⟨rest, hrest, hstarts⟩ := List.any_eq_true.mp hword
  rw [Bool.and_true] at hstarts
  exact ⟨rest, hrest, SqlLike.starts_of_isPrefixOf hstarts⟩

/-- The texts that the rule in Go knows. -/
def knownText (error : String) : Bool :=
  (contains "400" (toLower error.toList) && contains "invalid_request_error" (toLower error.toList)) ||
    authMethodUnresolved error || unresumableHistory error

/-- The texts that the query of a chat refuses. -/
def chatText (error : String) : Bool :=
  badRequest pg error || badAuth pg error || emptyMessage pg error || overflowText pg error

/-- The texts that the query of an issue refuses. -/
def taskText (error : String) : Bool := chatText pg error || badImage pg error

theorem resumeUnsafeFailure_eq (reason error : String) :
    resumeUnsafeFailure reason error = (resumeUnsafeFailureReason reason || knownText error) := by
  simp only [resumeUnsafeFailure, knownText, Bool.or_assoc]

/-- An ASCII text that the rule in Go knows is refused by both queries. -/
theorem chatText_of_known (hascii : Ascii error.toList) (h : knownText error = true) :
    chatText pg error = true := by
  have hlower := pg.lower_ascii error.toList hascii
  have hfold := pg.fold_ascii error.toList hascii
  rw [knownText, Bool.or_eq_true, Bool.or_eq_true, Bool.and_eq_true, ← hlower] at h
  rw [chatText, Bool.or_eq_true, Bool.or_eq_true, Bool.or_eq_true]
  rcases h with (⟨hcode, hword⟩ | hauth) | hempty
  · exact .inl (.inl (.inl (badRequest_of_contains pg hcode hword)))
  · have hword : badAuth pg error = contains "could not resolve authentication method" (pg.lower error.toList) :=
      ilike_word pg (by decide) (by decide) (by decide) error
    rw [authMethodUnresolved, ← hlower, ← hword] at hauth
    exact .inl (.inl (.inr hauth))
  · rw [unresumableHistory, ← hfold] at hempty
    exact .inl (.inr hempty)

/-- What the chat query makes of a failed row: an unsafe reason or a refused text. -/
theorem chatSafe_eq (reason error : String) :
    (chatSafe pg reason error && !(decide (reason = "codex_resume_oversized") || overflowText pg error)) =
      !(resumeUnsafeFailureReason reason || chatText pg error) := by
  have hchat : chatSafe pg reason error =
      (!resumeUnsafeFailureReason reason && !badRequest pg error && !badAuth pg error && !emptyMessage pg error) := rfl
  rw [hchat, chatText]
  by_cases hsize : reason = "codex_resume_oversized"
  · have hunsafe : resumeUnsafeFailureReason reason = true := by
      rw [hsize]
      decide
    rw [ hunsafe]
    rfl
  · simp [hsize, Bool.and_assoc]

theorem taskSafe_eq (reason error : String) :
    (taskSafe pg reason error && !(decide (reason = "codex_resume_oversized") || overflowText pg error)) =
      !(resumeUnsafeFailureReason reason || taskText pg error) := by
  rw [taskSafe, Bool.and_right_comm, chatSafe_eq, taskText, ← Bool.not_or, Bool.or_assoc]

end Texts

/-- In every table the rule in Go and the query judge `r` alike. -/
def SameVerdict (pg : Collation) (own : TaskRow → Bool) (clock : TaskRow → Option Nat) (reason error : String)
    (query : List TaskRow → Option (Option SessionId × Option String × Nat)) : Prop :=
  ∀ rows r s, NothingElse pg own clock rows r s → r.reason = reason → r.errorText = error →
    (resumeUnsafeFailure reason error = true ↔ Refuses (query rows) s)

/-! ## One failed task -/

/-- The only task of an issue and of a chat: failed, with a session. -/
def failedTask (agentId issueId chatSessionId : Nat) (revision : Option Int) (reason error : String) : TaskRow where
  agentId := agentId
  issueId := some issueId
  chatSessionId := some chatSessionId
  channelContextRevision := revision
  runtimeId := 0
  status := .failed
  createdAt := 0
  dispatchedAt := some 1
  startedAt := some 2
  completedAt := some 3
  sessionId := some 7
  workDir := none
  retiredSessionId := none
  failureReason := some reason
  error := some error

variable {own : TaskRow → Bool}

theorem failedTask_alone (pg : Collation) (howned : own r = true)
    (htimed : (clock r).isSome = true) (hfailed : r.status = .failed)
    (hsession : r.sessionId = some 7) (hretired : r.retiredSessionId = none) :
    NothingElse pg own clock [r] r 7 where
  mem := List.mem_singleton_self _
  owned := howned
  failed := hfailed
  session := hsession
  timed := htimed
  newer := fun _ hq _ _ _ hne => absurd (List.mem_singleton.mp hq) hne
  kept := by
    intro q hq _
    rw [List.mem_singleton.mp hq, hretired]
    exact Option.some_ne_none 7 ∘ Eq.symm
  after := fun _ hq _ _ hne => absurd (List.mem_singleton.mp hq) hne

/-- A query judges alike exactly where the reason is unsafe or the texts that it refuses are
those that the rule in Go knows. -/
theorem sameVerdict_iff {pg : Collation} {safe : String → String → Bool} {reason error : String}
    {text : Bool}
    (hrule : (safe reason error && !(decide (reason = "codex_resume_oversized") || overflowText pg error)) = !(resumeUnsafeFailureReason reason || text))
    {row : TaskRow} (hrow : NothingElse pg own clock [row] row 7) (hreason : row.reason = reason)
    (herror : row.errorText = error) :
    SameVerdict pg own clock reason error (lastSession pg own clock safe) ↔
      (resumeUnsafeFailureReason reason = true ∨ knownText error = text) := by
  have hrefuses : ∀ {rows r s}, NothingElse pg own clock rows r s → r.reason = reason → r.errorText = error →
      (Refuses (lastSession pg own clock safe rows) s ↔ (resumeUnsafeFailureReason reason || text) = true) := by
    intro rows r s h hreason herror
    rw [lastSession_iff h, TaskRow.overflowed, h.failed, hreason, herror]
    show (safe reason error && !(true && _)) = false ↔ _
    rw [Bool.true_and, hrule, Bool.not_eq_false']
  have hverdicts : ((resumeUnsafeFailureReason reason || knownText error) = true ↔
      (resumeUnsafeFailureReason reason || text) = true) ↔
      (resumeUnsafeFailureReason reason = true ∨ knownText error = text) := by
    cases resumeUnsafeFailureReason reason <;> cases knownText error <;> cases text <;> simp
  rw [← hverdicts, ← resumeUnsafeFailure_eq]
  constructor
  · intro hsame
    rw [hsame _ _ _ hrow hreason herror, hrefuses hrow hreason herror]
  · intro hsame rows r s h hr he
    rw [hsame, hrefuses h hr he]

/-- The two queries and the rule in Go judge a failure alike exactly where its reason is unsafe
or no text stands alone that only the queries, or only the rule in Go, refuse.  Of ASCII texts
none is refused by the rule in Go alone. -/
theorem guards_agree_iff (pg : Collation) (reason error : String) :
    (((∀ agentId issueId, SameVerdict pg (ofIssue agentId issueId) TaskRow.terminalAt reason error
        (getLastTaskSession pg agentId issueId)) ∧
      ∀ chatSessionId revision, SameVerdict pg (ofChat chatSessionId revision) TaskRow.completedAt reason error
        (getLastChatTaskSession pg chatSessionId revision)) ↔
      (taskText pg error = true → resumeUnsafeFailureReason reason = true ∨ knownText error = true) ∧
        (knownText error = true → resumeUnsafeFailureReason reason = true ∨ chatText pg error = true)) ∧
      (Ascii error.toList → knownText error = true → chatText pg error = true) := by
  have htask : ∀ agentId issueId, SameVerdict pg (ofIssue agentId issueId) TaskRow.terminalAt reason error
      (getLastTaskSession pg agentId issueId) ↔
      (resumeUnsafeFailureReason reason = true ∨ knownText error = taskText pg error) := by
    intro agentId issueId
    have howned : ofIssue agentId issueId (failedTask agentId issueId 0 none reason error) = true := by
      simp [ofIssue, failedTask]
    exact sameVerdict_iff (taskSafe_eq pg reason error) (failedTask_alone pg howned rfl rfl rfl rfl) rfl rfl
  have hchat : ∀ chatSessionId revision, SameVerdict pg (ofChat chatSessionId revision) TaskRow.completedAt
      reason error (getLastChatTaskSession pg chatSessionId revision) ↔
      (resumeUnsafeFailureReason reason = true ∨ knownText error = chatText pg error) := by
    intro chatSessionId revision
    have howned : ofChat chatSessionId revision (failedTask 0 0 chatSessionId revision reason error) = true := by
      cases revision <;> simp [ofChat, failedTask]
    exact sameVerdict_iff (chatSafe_eq pg reason error) (failedTask_alone pg howned rfl rfl rfl rfl) rfl rfl
  refine ⟨?_, fun hascii hknown => chatText_of_known pg hascii hknown⟩
  simp only [htask, hchat, forall_const]
  unfold taskText
  cases resumeUnsafeFailureReason reason <;> cases knownText error <;> cases chatText pg error <;>
    cases badImage pg error <;> simp

/-- A database that folds every letter as Go does. -/
def goCollation : Collation := ⟨toLower, foldCase, fun _ _ => rfl, fun _ _ => rfl⟩

/-- An error about the size of an image, of an unknown reason: the query of the issue refuses
its session, and the rule in Go does not. -/
theorem image_error_refused :
    ¬ SameVerdict goCollation (ofIssue 0 0) TaskRow.terminalAt "agent_error.unknown"
      "image.source.base64.data: image dimensions exceed max allowed size" (getLastTaskSession goCollation 0 0) := by
  intro hsame
  have halone : NothingElse goCollation (ofIssue 0 0) TaskRow.terminalAt [failedTask 0 0 0 none "agent_error.unknown"
      "image.source.base64.data: image dimensions exceed max allowed size"] (failedTask 0 0 0 none "agent_error.unknown"
      "image.source.base64.data: image dimensions exceed max allowed size") 7 :=
    failedTask_alone goCollation rfl rfl rfl rfl rfl
  have hrefuses : Refuses (getLastTaskSession goCollation 0 0 [_]) 7 := (lastSession_iff halone).mpr (by decide +kernel)
  exact absurd ((hsame _ _ 7 halone rfl rfl).mpr hrefuses) (by decide +kernel)

end ClawMessenger.Ports.ResumeQueries
