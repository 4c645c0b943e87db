import ClawMessenger.Ports.ChatResumePointer

/-!
# The resume pointer and dead sessions

A session is dead on a runtime when a task of the chat retired it, or failed in it
unsafely, after the last task that ended cleanly in it.  The pointer is `Alive`
when it does not name a dead session.

Every other statement keeps the pointer alive by itself.  What can break it is the
move to the session of a cancelled row, which looks at the sessions of newer rows
and not at what they retired, a failure report that names one session as its own
and as retired, and a report of a session whose rollout is missing.  `Sane` says
that none of this happens in a step, and `pointer_alive_iff` that a run keeps the
pointer alive exactly when all its steps are sane.
-/

namespace ClawMessenger.Ports.ChatResumePointer

open ClawMessenger.Verified LastVerdict List

/-! ## Dead sessions -/

/-- A failure after which the session of the row is not resumed. -/
def Task.unsafeFailure (t : Task) : Bool :=
  t.status == .failed && resumeUnsafeFailure (t.failureReason.getD "") (t.error.getD "")

/-- The task retired the session or failed in it unsafely. -/
def Task.Abandons (t : Task) (k : Nat × SessionId) : Prop :=
  t.runtimeId = k.1 ∧ (t.retiredSessionId = some k.2 ∨ t.unsafeFailure = true ∧ t.sessionId = some k.2)

/-- The task completed in the session, or failed in it in a way that it can be
resumed after, and did not retire it. -/
def Task.EndsCleanly (t : Task) (k : Nat × SessionId) : Prop :=
  t.runtimeId = k.1 ∧ t.sessionId = some k.2 ∧ t.retiredSessionId ≠ some k.2 ∧
    (t.status = .completed ∨ t.status = .failed ∧ t.unsafeFailure = false)

def verdict : Verdict Task (Nat × SessionId) := ⟨Task.completedAt, Task.EndsCleanly, Task.Abandons⟩

def Dead (tasks : List Task) (runtimeId : Nat) (sessionId : SessionId) : Prop :=
  Condemned verdict tasks (runtimeId, sessionId)

/-- The pointer names a session with its runtime. -/
def ChatSession.Names (chat : ChatSession) (sessionId : SessionId) (runtimeId : Nat) : Prop :=
  chat.sessionId = some sessionId ∧ chat.runtimeId = some runtimeId

def Alive (σ : State) : Prop :=
  ∀ sessionId runtimeId, σ.chat.Names sessionId runtimeId → ¬ Dead σ.tasks runtimeId sessionId

/-! ## Sane steps -/

/-- The session of the cancelled row that a pin or a cancel moves to is alive; a failure
names no session as its own and as retired; and no report names a dead session whose
rollout is missing. -/
def Sane (σ : State) : Action → Prop
  | .pin id sessionId workDir =>
    ∀ t s, advancing (pinned σ.tasks id sessionId workDir) id = some (t, s) → ¬ Dead σ.tasks t.runtimeId s
  | .cancel id cause =>
    ∀ u t s, updateRow σ.tasks id (fun t => t.status.active) = some u →
      advancing (setRow σ.tasks id (fun t => t.status.active) (Task.cancel σ.now cause)) id = some (t, s) →
      ¬ Dead σ.tasks t.runtimeId s
  | .complete id report =>
    ∀ t s, updateRow σ.tasks id completable = some t → report.sessionId = some s →
      report.sessionRolloutMissing = true → report.retiredSessionId ≠ some s → ¬ Dead σ.tasks t.runtimeId s
  | .fail id errMsg failureReason report _ =>
    resumeUnsafeFailure failureReason errMsg = false → ∀ t s, updateRow σ.tasks id failable = some t →
      report.sessionId = some s → report.retiredSessionId ≠ some s ∧
        (report.sessionRolloutMissing = true → ¬ Dead σ.tasks t.runtimeId s)
  | _ => True

/-! ## Rows of a run -/

/-- What every run keeps of the rows. -/
structure Sound (now : Nat) (tasks : List Task) : Prop where
  keyed : Rows.Keyed Task.id tasks
  ended : ∀ t ∈ tasks, ∀ n, t.completedAt = some n → n < now
  unsettled : ∀ t ∈ tasks, t.status ≠ .completed → t.status ≠ .failed → t.retiredSessionId = none

theorem silent_of {t : Task} (hcompleted : t.status ≠ .completed) (hfailed : t.status ≠ .failed)
    (hretired : t.retiredSessionId = none) : verdict.Silent t := by
  constructor
  · rintro k ⟨_, _, _, hstatus⟩
    rcases hstatus with h | ⟨h, _⟩
    · exact hcompleted h
    · exact hfailed h
  · rintro k ⟨_, hbad⟩
    rcases hbad with h | ⟨h, _⟩
    · rw [hretired] at h
      cases h
    · simp [Task.unsafeFailure, hfailed] at h

section Row

variable {now : Nat} {tasks : List Task} {id : Nat} {guard : Task → Bool} {t : Task}

theorem of_updateRow (h : updateRow tasks id guard = some t) : t ∈ tasks ∧ t.id = id ∧ guard t = true := by
  have hmem := mem_of_find?_eq_some h
  have hsome := find?_some h
  simp only [Bool.and_eq_true, decide_eq_true_eq] at hsome
  exact ⟨hmem, hsome⟩

theorem setRow_of_none (f : Task → Task) (h : updateRow tasks id guard = none) :
    setRow tasks id guard f = tasks := by
  apply Rows.update_of_none
  intro row hrow
  have hnot := find?_eq_none.mp h row hrow
  simpa using hnot

variable {f : Task → Task}

/-- The row of an update ends now. -/
theorem Sound.ending (h : Sound now tasks) (hrow : updateRow tasks id guard = some t)
    (hcompleted : t.status ≠ .completed) (hfailed : t.status ≠ .failed)
    (hended : (f t).completedAt = some now) :
    Update verdict tasks (fun t => t.id = id && guard t) f t now := by
  obtain ⟨hmem, hid, hguard⟩ := of_updateRow hrow
  refine ⟨hmem, by simp [hid, hguard], ?_, silent_of hcompleted hfailed (h.unsettled t hmem hcompleted hfailed),
    hended, h.ended⟩
  intro row hrow' hp
  simp only [Bool.and_eq_true, decide_eq_true_eq] at hp
  exact h.keyed.eq_of_key hrow' hmem (hp.1.trans hid.symm)

/-- A change of rows that have not ended. -/
theorem Sound.dead_setRow (h : Sound now tasks)
    (hbefore : ∀ t, guard t = true → t.status ≠ .completed ∧ t.status ≠ .failed)
    (hafter : ∀ t, guard t = true → (f t).status ≠ .completed ∧ (f t).status ≠ .failed)
    (hretired : ∀ t, (f t).retiredSessionId = t.retiredSessionId) (r : Nat) (s : SessionId) :
    Dead (setRow tasks id guard f) r s ↔ Dead tasks r s := by
  apply condemned_update
  · intro row hrow hp
    simp only [Bool.and_eq_true, decide_eq_true_eq] at hp
    have hstatus := hbefore row hp.2
    exact silent_of hstatus.1 hstatus.2 (h.unsettled row hrow hstatus.1 hstatus.2)
  · intro row hrow hp
    simp only [Bool.and_eq_true, decide_eq_true_eq] at hp
    have hstatus := hbefore row hp.2
    have hstatus' := hafter row hp.2
    refine silent_of hstatus'.1 hstatus'.2 ?_
    rw [hretired]
    exact h.unsettled row hrow hstatus.1 hstatus.2

theorem Sound.setRow (h : Sound now tasks) {now' : Nat} (hnow : now ≤ now')
    (hid : ∀ t, (f t).id = t.id)
    (hended : ∀ t ∈ tasks, ∀ n, guard t = true → (f t).completedAt = some n → n < now')
    (hunsettled : ∀ t ∈ tasks, guard t = true → (f t).status ≠ .completed → (f t).status ≠ .failed → (f t).retiredSessionId = none) :
    Sound now' (setRow tasks id guard f) := by
  refine ⟨h.keyed.update _ fun row _ => hid row, ?_, ?_⟩
  · intro t ht n hn
    rcases Rows.mem_update.mp ht with ⟨old, hold, hp, rfl⟩ | ⟨hmem, _⟩
    · simp only [Bool.and_eq_true, decide_eq_true_eq] at hp
      exact hended old hold n hp.2 hn
    · have := h.ended t hmem n hn
      omega
  · intro t ht hcompleted hfailed
    rcases Rows.mem_update.mp ht with ⟨old, hold, hp, rfl⟩ | ⟨hmem, _⟩
    · simp only [Bool.and_eq_true, decide_eq_true_eq] at hp
      exact hunsettled old hold hp.2 hcompleted hfailed
    · exact h.unsettled t hmem hcompleted hfailed

theorem Sound.append (h : Sound now tasks) (hfresh : fresh tasks t.id = true) (hended : t.completedAt = none)
    (hretired : t.retiredSessionId = none) : Sound now (tasks ++ [t]) := by
  refine ⟨?_, ?_, ?_⟩
  · apply h.keyed.insert
    intro old hold heq
    have := all_eq_true.mp hfresh old hold
    simp [heq] at this
  · intro u hu n hn
    rcases mem_append.mp hu with hold | hnew
    · exact h.ended u hold n hn
    · rw [mem_singleton.mp hnew, hended] at hn
      cases hn
  · intro u hu hcompleted hfailed
    rcases mem_append.mp hu with hold | hnew
    · exact h.unsettled u hold hcompleted hfailed
    · rw [mem_singleton.mp hnew]
      exact hretired

/-- A child is inserted, or nothing is. -/
theorem createRetryTask_cases (tasks : List Task) (parentId : Nat) (child : Child) :
    createRetryTask tasks parentId child = tasks ∨
      ∃ t, createRetryTask tasks parentId child = tasks ++ [t] ∧ fresh tasks t.id = true ∧
        t.completedAt = none ∧ t.retiredSessionId = none ∧ t.status ≠ .completed ∧ t.status ≠ .failed := by
  unfold createRetryTask
  split
  · exact .inl rfl
  · split
    · next hfresh =>
        refine .inr ⟨_, rfl, hfresh, rfl, rfl, ?_, ?_⟩
        · dsimp only
          split <;> simp
        · dsimp only
          split <;> simp
    · exact .inl rfl

theorem Sound.createRetryTask (h : Sound now tasks) (parentId : Nat) (child : Child) :
    Sound now (createRetryTask tasks parentId child) := by
  rcases createRetryTask_cases tasks parentId child with heq | ⟨t, heq, hfresh, hended, hretired, _, _⟩
  · rw [heq]
    exact h
  · rw [heq]
    exact h.append hfresh hended hretired

theorem dead_createRetryTask (tasks : List Task) (parentId : Nat) (child : Child) (r : Nat) (s : SessionId) :
    Dead (createRetryTask tasks parentId child) r s ↔ Dead tasks r s := by
  rcases createRetryTask_cases tasks parentId child with heq | ⟨t, heq, _, _, hretired, hcompleted, hfailed⟩
  · rw [heq]
  · rw [heq]
    exact condemned_append (silent_of hcompleted hfailed hretired) (r, s)

theorem Sound.withRetry (h : Sound now tasks) (parentId : Nat) (retry : Option Child) :
    Sound now (withRetry tasks parentId retry) := by
  cases retry with
  | none => exact h
  | some child => exact h.createRetryTask parentId child

theorem dead_withRetry (tasks : List Task) (parentId : Nat) (retry : Option Child) (r : Nat) (s : SessionId) :
    Dead (withRetry tasks parentId retry) r s ↔ Dead tasks r s := by
  cases retry with
  | none => exact Iff.rfl
  | some child => exact dead_createRetryTask tasks parentId child r s

/-- The row of a terminal report has retired nothing yet. -/
theorem Sound.reported (h : Sound now tasks) (hrow : updateRow tasks id guard = some t)
    (hguard : guard t = true → failable t = true) :
    t.status ≠ .completed ∧ t.status ≠ .failed ∧ t.retiredSessionId = none := by
  obtain ⟨hmem, _, hg⟩ := of_updateRow hrow
  have hfailable := hguard hg
  have hcompleted : t.status ≠ .completed := by
    intro heq
    simp [failable, heq] at hfailable
  have hfailed : t.status ≠ .failed := by
    intro heq
    simp [failable, heq] at hfailable
  exact ⟨hcompleted, hfailed, h.unsettled t hmem hcompleted hfailed⟩

end Row

/-! ## What the statements name -/

section Names

variable {chat : ChatSession} {s s₀ : SessionId} {r r₀ : Nat} {workDir : Option Nat}

theorem names_clear :
    (clearChatSessionSessionIfMatches chat s₀ r₀).Names s r ↔ chat.Names s r ∧ ¬ (s = s₀ ∧ r = r₀) := by
  unfold clearChatSessionSessionIfMatches
  split
  · next hmatch =>
      constructor
      · rintro ⟨hs, _⟩
        cases hs
      · rintro ⟨⟨hs, hr⟩, hne⟩
        rw [hmatch.1] at hs
        rw [hmatch.2] at hr
        cases hs
        cases hr
        exact absurd ⟨rfl, rfl⟩ hne
  · next hmatch =>
      constructor
      · intro hnames
        refine ⟨hnames, ?_⟩
        rintro ⟨rfl, rfl⟩
        exact hmatch hnames
      · exact And.left

theorem names_update_none :
    (updateChatSessionSession chat none workDir none).Names s r ↔ chat.Names s r := Iff.rfl

theorem names_update_some :
    (updateChatSessionSession chat (some s₀) workDir (some r₀)).Names s r ↔ s = s₀ ∧ r = r₀ := by
  constructor
  · rintro ⟨hs, hr⟩
    cases hs
    cases hr
    exact ⟨rfl, rfl⟩
  · rintro ⟨rfl, rfl⟩
    exact ⟨rfl, rfl⟩

theorem names_clearDead (dead : Option SessionId) :
    (clearDead chat dead r₀).Names s r ↔ chat.Names s r ∧ ¬ (dead = some s ∧ r = r₀) := by
  cases dead with
  | none => simp [clearDead]
  | some d =>
    rw [clearDead, names_clear]
    constructor
    · rintro ⟨hnames, hne⟩
      refine ⟨hnames, ?_⟩
      rintro ⟨hd, hr⟩
      cases hd
      exact hne ⟨rfl, hr⟩
    · rintro ⟨hnames, hne⟩
      refine ⟨hnames, ?_⟩
      rintro ⟨rfl, hr⟩
      exact hne ⟨rfl, hr⟩

end Names

/-- The pointer after a move to the session of a cancelled row. -/
theorem alive_advance {now : Nat} {tasks : List Task} {chat : ChatSession} {id : Nat}
    (hchat : ∀ s r, chat.Names s r → ¬ Dead tasks r s) :
    Alive ⟨now, tasks, advanceCancelledChatSessionPointer tasks chat id⟩ ↔
      ∀ t s, advancing tasks id = some (t, s) → ¬ Dead tasks t.runtimeId s := by
  unfold Alive advanceCancelledChatSessionPointer
  cases hadvancing : advancing tasks id with
  | none =>
    constructor
    · intro _ t s h
      cases h
    · intro _
      exact hchat
  | some found =>
    obtain ⟨t, s₀⟩ := found
    constructor
    · intro halive u s h
      cases h
      exact halive s₀ t.runtimeId ⟨rfl, rfl⟩
    · rintro hsane s r ⟨hs, hr⟩
      cases hs
      cases hr
      exact hsane t s₀ rfl

/-! ## What an ended row says -/

section Ended

variable {now : Nat} {report : Report} {t : Task} {r : Nat} {s : SessionId}

theorem completed_abandons (hretired : t.retiredSessionId = none) :
    (t.completeAgentTask now report).Abandons (r, s) ↔ t.runtimeId = r ∧ report.retiredSessionId = some s := by
  simp [Task.Abandons, Task.completeAgentTask, Task.unsafeFailure, hretired]

theorem completed_endsCleanly (hretired : t.retiredSessionId = none) :
    (t.completeAgentTask now report).EndsCleanly (r, s) ↔ t.runtimeId = r ∧
      report.sessionRolloutMissing = false ∧ report.sessionId = some s ∧ report.retiredSessionId ≠ some s := by
  cases hmissing : report.sessionRolloutMissing <;>
    simp [Task.EndsCleanly, Task.completeAgentTask, hretired, hmissing]

variable {errMsg failureReason : String}

theorem failed_unsafe :
    (t.failAgentTask now errMsg failureReason report).unsafeFailure = resumeUnsafeFailure failureReason errMsg := rfl

theorem failed_abandons (hretired : t.retiredSessionId = none) :
    (t.failAgentTask now errMsg failureReason report).Abandons (r, s) ↔ t.runtimeId = r ∧
      (report.retiredSessionId = some s ∨ resumeUnsafeFailure failureReason errMsg = true ∧
        report.sessionRolloutMissing = false ∧ report.sessionId.or t.sessionId = some s) := by
  rw [Task.Abandons, failed_unsafe]
  cases hmissing : report.sessionRolloutMissing <;> simp [Task.failAgentTask, hretired, hmissing]

theorem failed_endsCleanly (hretired : t.retiredSessionId = none) :
    (t.failAgentTask now errMsg failureReason report).EndsCleanly (r, s) ↔ t.runtimeId = r ∧
      report.sessionRolloutMissing = false ∧ report.sessionId.or t.sessionId = some s ∧
      report.retiredSessionId ≠ some s ∧ resumeUnsafeFailure failureReason errMsg = false := by
  rw [Task.EndsCleanly, failed_unsafe]
  cases hmissing : report.sessionRolloutMissing <;> simp [Task.failAgentTask, hretired, hmissing]

theorem sweep_safe (kind : Sweep) : resumeUnsafeFailure kind.failureReason kind.error = false := by
  cases kind <;> decide +kernel

theorem swept_abandons (hretired : t.retiredSessionId = none) (kind : Sweep) :
    ¬ (t.sweep now kind).Abandons (r, s) := by
  have hsafe := sweep_safe kind
  simp [Task.Abandons, Task.sweep, Task.unsafeFailure, hretired, hsafe]

end Ended

/-! ## Transactions -/

section Ending

variable {now : Nat} {tasks : List Task} {p : Task → Bool} {f : Task → Task} {t : Task} {r : Nat} {s : SessionId}

section

variable (h : Update verdict tasks p f t now)
include h

theorem not_dead_of_clean (hclean : (f t).EndsCleanly (r, s)) :
    ¬ Dead (Rows.update tasks p f) r s := h.not_condemned hclean

theorem dead_of_abandons (hclean : ¬ (f t).EndsCleanly (r, s)) (habandons : (f t).Abandons (r, s)) :
    Dead (Rows.update tasks p f) r s := h.condemned hclean habandons

theorem dead_iff_of_neither (hclean : ¬ (f t).EndsCleanly (r, s))
    (habandons : ¬ (f t).Abandons (r, s)) : Dead (Rows.update tasks p f) r s ↔ Dead tasks r s :=
  h.condemned_iff hclean habandons

end

end Ending

section Transactions

variable {σ : State} {id : Nat}

theorem completeTask_alive (h : Sound σ.now σ.tasks) (halive : Alive σ) (report : Report) :
    Alive (completeTask σ id report) ↔ Sane σ (.complete id report) := by
  unfold completeTask
  cases hrow : updateRow σ.tasks id completable with
  | none =>
    constructor
    · intro _ t s ht
      rw [hrow] at ht
      cases ht
    · intro _
      exact halive
  | some t =>
    have hrunning : completable t = true → failable t = true := by
      intro hrunning
      simp only [completable, beq_iff_eq] at hrunning
      simp [failable, hrunning]
    obtain ⟨hcompleted, hfailed, hretired⟩ := h.reported hrow hrunning
    have hending := h.ending (f := Task.completeAgentTask σ.now report) hrow hcompleted hfailed rfl
    have hneither : ∀ s, (report.sessionId = some s → report.sessionRolloutMissing = true) → ∀ r,
        ¬ (report.retiredSessionId = some s ∧ r = t.runtimeId) →
        (Dead (setRow σ.tasks id completable (Task.completeAgentTask σ.now report)) r s ↔ Dead σ.tasks r s) := by
      intro s hmissing r hne
      refine dead_iff_of_neither hending ?_ ?_
      · rw [completed_endsCleanly hretired]
        rintro ⟨_, hpresent, hs, _⟩
        rw [hmissing hs] at hpresent
        cases hpresent
      · rw [completed_abandons hretired]
        rintro ⟨hr, hs⟩
        exact hne ⟨hs, hr.symm⟩
    simp only [Alive, names_clearDead]
    cases hsession : report.sessionId with
    | none =>
      constructor
      · intro _ u s _ hs
        rw [hsession] at hs
        cases hs
      · rintro _ s r ⟨hnamed, hne⟩ hdead
        apply halive s r hnamed
        refine (hneither s ?_ r hne).mp hdead
        rw [hsession]
        simp
    | some s₀ =>
      simp only [Option.map_some, names_update_some]
      constructor
      · intro hafter u s hu hs hmissing hretire hbefore
        rw [hrow] at hu
        rw [hsession] at hs
        cases hu
        cases hs
        have hne : ¬ (report.retiredSessionId = some s₀ ∧ t.runtimeId = t.runtimeId) := fun hr => hretire hr.1
        apply hafter s₀ t.runtimeId ⟨⟨rfl, rfl⟩, hne⟩
        exact (hneither s₀ (fun _ => hmissing) t.runtimeId hne).mpr hbefore
      · rintro hsane s r ⟨⟨rfl, rfl⟩, hne⟩ hdead
        have hretire : report.retiredSessionId ≠ some s := fun hr => hne ⟨hr, rfl⟩
        by_cases hmissing : report.sessionRolloutMissing = true
        · apply hsane t s hrow hsession hmissing hretire
          exact (hneither s (fun _ => hmissing) t.runtimeId hne).mp hdead
        · refine not_dead_of_clean hending ?_ hdead
          rw [completed_endsCleanly hretired]
          exact ⟨rfl, by simpa using hmissing, hsession, hretire⟩

variable {errMsg failureReason : String}

section

variable (h : Sound σ.now σ.tasks) (halive : Alive σ)
include h halive

/-- An unsafe failure takes both sessions off the pointer. -/
theorem failTask_alive_of_unsafe (hdangerous : resumeUnsafeFailure failureReason errMsg = true)
    (report : Report) (retry : Option Child) :
    Alive (failTask σ id errMsg failureReason report retry) := by
  unfold failTask
  cases hrow : updateRow σ.tasks id failable with
  | none => exact halive
  | some t =>
    obtain ⟨hcompleted, hfailed, hretired⟩ := h.reported hrow fun hf => hf
    have hending := h.ending (f := Task.failAgentTask σ.now errMsg failureReason report) hrow hcompleted
      hfailed rfl
    intro s r hnames hdead
    rw [dead_withRetry] at hdead
    simp only [failedChat, hdangerous, if_true, names_clearDead] at hnames
    obtain ⟨⟨hnamed, hpoisoned⟩, hne⟩ := hnames
    apply halive s r hnamed
    refine (dead_iff_of_neither hending ?_ ?_).mp hdead
    · rw [failed_endsCleanly hretired, hdangerous]
      simp
    · rw [failed_abandons hretired]
      rintro ⟨hr, hbad⟩
      rcases hbad with hs | ⟨_, hmissing, hs⟩
      · exact hne ⟨hs, hr.symm⟩
      · apply hpoisoned
        refine ⟨?_, hr.symm⟩
        cases hreported : report.sessionId with
        | none =>
          rw [hreported] at hs
          simpa [Task.failAgentTask, hmissing, hreported] using hs
        | some reported =>
          rw [hreported] at hs
          simpa using hs

/-- A failure that the session can be resumed after. -/
theorem failTask_alive_of_safe (hsafe : resumeUnsafeFailure failureReason errMsg = false)
    (report : Report) (retry : Option Child) :
    Alive (failTask σ id errMsg failureReason report retry) ↔
      Sane σ (.fail id errMsg failureReason report retry) := by
  unfold failTask
  cases hrow : updateRow σ.tasks id failable with
  | none =>
    constructor
    · intro _ _ t s ht
      rw [hrow] at ht
      cases ht
    · intro _
      exact halive
  | some t =>
    obtain ⟨hcompleted, hfailed, hretired⟩ := h.reported hrow fun hf => hf
    have hending := h.ending (f := Task.failAgentTask σ.now errMsg failureReason report) hrow hcompleted
      hfailed rfl
    have habandons : ∀ r s, (t.failAgentTask σ.now errMsg failureReason report).Abandons (r, s) ↔
        t.runtimeId = r ∧ report.retiredSessionId = some s := by
      intro r s
      rw [failed_abandons hretired, hsafe]
      simp
    simp only [Alive, failedChat, hsafe, Bool.false_eq_true, if_false, dead_withRetry]
    cases hsession : report.sessionId with
    | none =>
      constructor
      · intro _ _ u s _ hs
        rw [hsession] at hs
        cases hs
      · rintro _ s r hnames hdead
        simp only [Option.map_none, names_update_none, names_clearDead] at hnames
        apply halive s r hnames.1
        by_cases hclean : (t.failAgentTask σ.now errMsg failureReason report).EndsCleanly (r, s)
        · exact absurd hdead (not_dead_of_clean hending hclean)
        · refine (dead_iff_of_neither hending hclean ?_).mp hdead
          rw [habandons]
          rintro ⟨hr, hs⟩
          exact hnames.2 ⟨hs, hr.symm⟩
    | some s₀ =>
      have hneither (hmissing : report.sessionRolloutMissing = true)
          (hretire : report.retiredSessionId ≠ some s₀) :
          Dead (setRow σ.tasks id failable (Task.failAgentTask σ.now errMsg failureReason report))
            t.runtimeId s₀ ↔ Dead σ.tasks t.runtimeId s₀ := by
        refine dead_iff_of_neither hending ?_ ?_
        · rw [failed_endsCleanly hretired, hmissing]
          simp
        · rw [habandons]
          exact fun hbad => hretire hbad.2
      simp only [Option.map_some, names_update_some]
      constructor
      · intro hafter _ u s hu hs
        rw [hrow] at hu
        rw [hsession] at hs
        cases hu
        cases hs
        have hlive := hafter s₀ t.runtimeId ⟨rfl, rfl⟩
        have hretire : report.retiredSessionId ≠ some s₀ := by
          intro hretire
          apply hlive
          refine dead_of_abandons hending ?_ ?_
          · rw [failed_endsCleanly hretired]
            exact fun hclean => hclean.2.2.2.1 hretire
          · rw [habandons]
            exact ⟨rfl, hretire⟩
        refine ⟨hretire, ?_⟩
        intro hmissing hbefore
        exact hlive ((hneither hmissing hretire).mpr hbefore)
      · rintro hsane s r ⟨rfl, rfl⟩ hdead
        obtain ⟨hretire, hbefore⟩ := hsane hsafe t s hrow hsession
        by_cases hmissing : report.sessionRolloutMissing = true
        · exact hbefore hmissing ((hneither hmissing hretire).mp hdead)
        · refine not_dead_of_clean hending ?_ hdead
          rw [failed_endsCleanly hretired]
          exact ⟨rfl, by simpa using hmissing, by rw [hsession]; rfl, hretire, hsafe⟩

theorem failTask_alive (errMsg failureReason : String) (report : Report) (retry : Option Child) :
    Alive (failTask σ id errMsg failureReason report retry) ↔
      Sane σ (.fail id errMsg failureReason report retry) := by
  cases hdangerous : resumeUnsafeFailure failureReason errMsg with
  | true =>
    constructor
    · intro _ hsafe
      rw [hdangerous] at hsafe
      cases hsafe
    · intro _
      exact failTask_alive_of_unsafe h halive hdangerous report retry
  | false => exact failTask_alive_of_safe h halive hdangerous report retry

theorem pinTaskSession_alive (sessionId : Option SessionId) (workDir : Option Nat) :
    Alive (pinTaskSession σ id sessionId workDir) ↔ Sane σ (.pin id sessionId workDir) := by
  have hstatus : ∀ t, pinnable t = true → t.status ≠ .completed ∧ t.status ≠ .failed := by
    intro t ht
    constructor <;> intro heq <;> simp [pinnable, heq] at ht
  have hdead : ∀ r s, Dead (pinned σ.tasks id sessionId workDir) r s ↔ Dead σ.tasks r s :=
    h.dead_setRow hstatus hstatus fun _ => rfl
  have hchat : ∀ s r, σ.chat.Names s r → ¬ Dead (pinned σ.tasks id sessionId workDir) r s := by
    intro s r hnames
    rw [hdead]
    exact halive s r hnames
  refine (alive_advance hchat).trans ?_
  simp only [hdead]
  exact Iff.rfl

end

theorem active_not_ended {t : Task} (h : t.status.active = true) :
    t.status ≠ .completed ∧ t.status ≠ .failed := by
  constructor <;> intro heq <;> simp [heq, Status.active] at h

theorem dead_cancelled (h : Sound σ.now σ.tasks) (id : Nat) (cause : Option (String × String)) (r : Nat) (s : SessionId) :
    Dead (setRow σ.tasks id (fun t => t.status.active) (Task.cancel σ.now cause)) r s ↔ Dead σ.tasks r s := by
  refine h.dead_setRow (f := Task.cancel σ.now cause) (fun t ht => active_not_ended ht) ?_ (fun _ => rfl) r s
  intro t _
  simp [Task.cancel]

section

variable (h : Sound σ.now σ.tasks) (halive : Alive σ)
include h halive

theorem cancelTask_alive (cause : Option (String × String)) :
    Alive (cancelTask σ id cause) ↔ Sane σ (.cancel id cause) := by
  unfold cancelTask
  cases hrow : updateRow σ.tasks id fun t => t.status.active with
  | none =>
    constructor
    · intro _ u t s hu
      rw [hrow] at hu
      cases hu
    · intro _
      exact halive
  | some u =>
    have hdead := dead_cancelled h id cause
    have hchat : ∀ s r, σ.chat.Names s r →
        ¬ Dead (setRow σ.tasks id (fun t => t.status.active) (Task.cancel σ.now cause)) r s := by
      intro s r hnames
      rw [hdead]
      exact halive s r hnames
    refine (alive_advance hchat).trans ?_
    simp only [hdead]
    constructor
    · intro hmove _ t s _
      exact hmove t s
    · intro hsane t s
      exact hsane u t s hrow

/-- A sweep does not touch the pointer, and what it writes retires nothing. -/
theorem sweep_alive (kind : Sweep) :
    Alive (step σ (.sweep id kind)) := by
  intro s r hnames hdead
  apply halive s r hnames
  cases hrow : updateRow σ.tasks id kind.guard with
  | none =>
    have hsame := setRow_of_none (Task.sweep σ.now kind) hrow
    exact hsame ▸ hdead
  | some t =>
    obtain ⟨hmem, _, hguard⟩ := of_updateRow hrow
    have hactive : t.status ≠ .completed ∧ t.status ≠ .failed := by
      constructor <;> intro heq <;> cases kind <;> simp [Sweep.guard, failable, heq] at hguard
    have hretired := h.unsettled t hmem hactive.1 hactive.2
    have hending := h.ending (f := Task.sweep σ.now kind) hrow hactive.1 hactive.2 rfl
    by_cases hclean : (t.sweep σ.now kind).EndsCleanly (r, s)
    · exact absurd hdead (not_dead_of_clean hending hclean)
    · exact (dead_iff_of_neither hending hclean (swept_abandons hretired kind)).mp hdead

/-- A change of the status of a row that has not ended. -/
theorem setStatus_alive {guard : Task → Bool} {status : Status}
    (hbefore : ∀ t, guard t = true → t.status ≠ .completed ∧ t.status ≠ .failed)
    (hcompleted : status ≠ .completed) (hfailed : status ≠ .failed) :
    Alive (setStatus σ id guard status) := by
  intro s r hnames hdead
  apply halive s r hnames
  have hsame : Dead (setStatus σ id guard status).tasks r s ↔ Dead σ.tasks r s :=
    h.dead_setRow (f := fun t => { t with status := status }) hbefore (fun _ _ => ⟨hcompleted, hfailed⟩)
      (fun _ => rfl) r s
  exact hsame.mp hdead

end

end Transactions

/-! ## One step -/

section Step

variable {σ : State}

/-- A step keeps the pointer alive exactly when it is sane. -/
theorem alive_step_iff (h : Sound σ.now σ.tasks) (halive : Alive σ) (a : Action) :
    Alive (step σ a) ↔ Sane σ a := by
  cases a with
  | pin id sessionId workDir => exact pinTaskSession_alive h halive sessionId workDir
  | complete id report => exact completeTask_alive h halive report
  | fail id errMsg failureReason report retry => exact failTask_alive h halive errMsg failureReason report retry
  | cancel id cause => exact cancelTask_alive h halive cause
  | sweep id kind => exact iff_of_true (sweep_alive h halive kind) trivial
  | enqueue id runtimeId createdAt =>
    refine iff_of_true ?_ trivial
    rw [step]
    split
    · intro s r hnames hdead
      apply halive s r hnames
      exact (condemned_append (silent_of (by simp) (by simp) rfl) (r, s)).mp hdead
    · exact halive
  | promote id =>
    refine iff_of_true (setStatus_alive h halive ?_ (by simp) (by simp)) trivial
    intro t ht
    constructor <;> intro heq <;> simp [heq] at ht
  | claim id =>
    refine iff_of_true ?_ trivial
    rw [step]
    split
    · refine setStatus_alive h halive ?_ (by simp) (by simp)
      intro t ht
      constructor <;> intro heq <;> simp [heq] at ht
    · exact halive
  | waitLocalDirectory id =>
    refine iff_of_true (setStatus_alive h halive ?_ (by simp) (by simp)) trivial
    intro t ht
    constructor <;> intro heq <;> simp [heq] at ht
  | start id =>
    refine iff_of_true (setStatus_alive h halive ?_ (by simp) (by simp)) trivial
    intro t ht
    constructor <;> intro heq <;> simp [heq] at ht
  | cancelStatus id =>
    refine iff_of_true ?_ trivial
    intro s r hnames hdead
    exact halive s r hnames ((dead_cancelled h id none r s).mp hdead)
  | retry parentId child =>
    refine iff_of_true ?_ trivial
    rw [step]
    split
    · intro s r hnames hdead
      exact halive s r hnames ((dead_createRetryTask σ.tasks parentId child r s).mp hdead)
    · exact halive

variable {guard : Task → Bool}

theorem Sound.setStatus (h : Sound σ.now σ.tasks) (id : Nat) (status : Status)
    (hbefore : ∀ t, guard t = true → t.status ≠ .completed ∧ t.status ≠ .failed) :
    Sound (setStatus σ id guard status).now (setStatus σ id guard status).tasks := by
  refine h.setRow (Nat.le_refl _) (fun _ => rfl) ?_ ?_
  · intro t ht n _ hn
    exact h.ended t ht n hn
  · intro t ht hg _ _
    exact h.unsettled t ht (hbefore t hg).1 (hbefore t hg).2

/-- A row that ends in the step. -/
theorem Sound.endRow {now : Nat} {tasks : List Task} (h : Sound now tasks) (id : Nat)
    {f : Task → Task} (hid : ∀ t, (f t).id = t.id) (hended : ∀ t, (f t).completedAt = some now)
    (hunsettled : ∀ t ∈ tasks, guard t = true → (f t).status ≠ .completed → (f t).status ≠ .failed → (f t).retiredSessionId = none) :
    Sound (now + 1) (ChatResumePointer.setRow tasks id guard f) := by
  refine h.setRow (Nat.le_succ now) hid ?_ hunsettled
  intro t _ n _ hn
  rw [hended] at hn
  cases hn
  exact Nat.lt_succ_self now

theorem sound_step (h : Sound σ.now σ.tasks) (a : Action) : Sound (step σ a).now (step σ a).tasks := by
  cases a with
  | enqueue id runtimeId createdAt =>
    rw [step]
    split
    · next hfresh => exact h.append hfresh rfl rfl
    · exact h
  | promote id =>
    apply h.setStatus
    intro t ht
    constructor <;> intro heq <;> simp [heq] at ht
  | claim id =>
    rw [step]
    split
    · apply h.setStatus
      intro t ht
      constructor <;> intro heq <;> simp [heq] at ht
    · exact h
  | waitLocalDirectory id =>
    apply h.setStatus
    intro t ht
    constructor <;> intro heq <;> simp [heq] at ht
  | start id =>
    apply h.setStatus
    intro t ht
    constructor <;> intro heq <;> simp [heq] at ht
  | pin id sessionId workDir =>
    refine h.setRow (Nat.le_refl _) (fun _ => rfl) ?_ ?_
    · intro t ht n _ hn
      exact h.ended t ht n hn
    · intro t ht _ hcompleted hfailed
      exact h.unsettled t ht hcompleted hfailed
  | complete id report =>
    simp only [step, completeTask]
    split
    · exact h
    · exact h.endRow id (fun _ => rfl) (fun _ => rfl) fun _ _ _ hcompleted _ => absurd rfl hcompleted
  | fail id errMsg failureReason report retry =>
    simp only [step, failTask]
    split
    · exact h
    · have hended : Sound (σ.now + 1) (ChatResumePointer.setRow σ.tasks id failable
          (Task.failAgentTask σ.now errMsg failureReason report)) :=
        h.endRow id (fun _ => rfl) (fun _ => rfl) fun _ _ _ _ hfailed => absurd rfl hfailed
      exact hended.withRetry id retry
  | cancel id cause =>
    simp only [step, cancelTask]
    split
    · exact h
    · refine h.endRow id (fun _ => rfl) (fun _ => rfl) ?_
      intro t ht hactive _ _
      exact h.unsettled t ht (active_not_ended hactive).1 (active_not_ended hactive).2
  | cancelStatus id =>
    refine h.endRow id (fun _ => rfl) (fun _ => rfl) ?_
    intro t ht hactive _ _
    exact h.unsettled t ht (active_not_ended hactive).1 (active_not_ended hactive).2
  | sweep id kind => exact h.endRow id (fun _ => rfl) (fun _ => rfl) fun _ _ _ _ hfailed => absurd rfl hfailed
  | retry parentId child =>
    rw [step]
    split
    · exact h.createRetryTask parentId child
    · exact h

end Step

/-! ## Runs -/

theorem sound_run (actions : List Action) : Sound (run start actions).now (run start actions).tasks := by
  induction actions using reverseRecOn with
  | nil => exact ⟨Rows.Keyed.nil, by simp [run, start], by simp [run, start]⟩
  | append_singleton before a ih =>
    rw [run, foldl_append]
    exact sound_step ih a

/-- In every run: no state names a dead session exactly when every step is sane. -/
theorem pointer_alive_iff (actions : List Action) :
    (∀ before after, actions = before ++ after → Alive (run start before)) ↔
      ∀ before a after, actions = before ++ a :: after → Sane (run start before) a := by
  constructor
  · intro halive before a after heq
    have hnow := halive before (a :: after) heq
    have hnext := halive (before ++ [a]) after (by simp [heq])
    rw [run, foldl_append] at hnext
    exact (alive_step_iff (sound_run before) hnow a).mp hnext
  · intro hsane before
    induction before using reverseRecOn with
    | nil =>
      rintro _ _ s r ⟨hs, _⟩
      cases hs
    | append_singleton before a ih =>
      intro after heq
      have hearlier := ih (a :: after) (by simp [heq])
      rw [run, foldl_append]
      exact (alive_step_iff (sound_run before) hearlier a).mpr (hsane before a after (by simp [heq]))

/-- A turn completes in session 5.  The next one resumes it and is cancelled before
it pins anything; the one after abandons session 5 without a session of its own.
Then the pin of the cancelled turn arrives. -/
def stragglingPin : List Action := [
  .enqueue 0 7 0, .claim 0, .start 0, .complete 0 ⟨some 5, none, false, none⟩,
  .enqueue 1 7 1, .claim 1, .start 1, .cancel 1 none,
  .enqueue 2 7 2, .claim 2, .start 2, .complete 2 ⟨none, none, false, some 5⟩,
  .pin 1 (some 5) none]

theorem straggling_pin_names_dead : ¬ Alive (run start stragglingPin) := by
  intro halive
  apply halive 5 7 (by constructor <;> decide +kernel)
  have htasks : (run start stragglingPin).tasks =
      [⟨0, 7, .completed, 0, some 0, some 5, none, none, false, none, none⟩,
        ⟨1, 7, .cancelled, 1, some 1, some 5, none, none, false, none, none⟩,
        ⟨2, 7, .completed, 2, some 2, none, none, some 5, false, none, none⟩] := by decide +kernel
  rw [htasks]
  refine ⟨⟨2, 7, .completed, 2, some 2, none, none, some 5, false, none, none⟩, by simp, 2, rfl, ?_, ?_⟩
  · exact ⟨rfl, .inl rfl⟩
  · intro other hother m hended hclean
    simp only [mem_cons, not_mem_nil, or_false] at hother
    rcases hother with rfl | rfl | rfl
    · cases hended
      decide
    · cases hended
      decide
    · exact absurd hclean.2.1 (by simp)

end ClawMessenger.Ports.ChatResumePointer
