import ClawMessenger.Ports.TaskQueueMoves

/-!
# Capacity and serialization of claims

A claim holds the lock of its agent's row, so between its count and its commit
no other claim makes a task of the agent active, and no other statement ever
does.  What a claim has seen therefore stays true until it commits (`Holds`).
-/

namespace ClawMessenger.Ports.TaskQueue

open ClawMessenger.Verified Machine List
open Function (update update_apply)

variable {db db' : Db} {s : State} {c d : Claim} {n : Nat} {t : Task} {agentId : Nat}

/-! ## The order of steps -/

/-- A claim has locked the row of the agent. -/
def State.lockedAgent (s : State) (agentId : Nat) : Prop :=
  ∃ n c, s.claims n = some c ∧ c.agentId = agentId

/-- A claim has locked the row of the task. -/
def State.lockedTask (s : State) (t : Task) : Prop :=
  ∃ n c prepareLeaseSecs, s.claims n = some c ∧ c.phase = .claimed t prepareLeaseSecs

/-- Locked rows are not changed, and the limit of an agent is constant. -/
def Allowed (c : Config State Event (List Task)) : Event → Prop
  | .run now st => ∀ t, c.state.lockedTask t → (st.change now).selects c.state.db t = false
  | .deleteUnstartedQuickCreateRetryTask taskId =>
    ∀ t, c.state.lockedTask t → unstartedQuickCreate taskId t = false
  | .claim n agentId _ _ => c.state.claims n = none ∧ ¬ c.state.lockedAgent agentId
  | .saveAgent agentId agent => ¬ c.state.lockedAgent agentId ∧
      ∀ old, c.state.db.agents agentId = some old → agent.maxConcurrentTasks = old.maxConcurrentTasks
  | _ => True

/-! ## The invariant -/

/-- What an open claim knows. -/
structure Holds (db : Db) (c : Claim) : Prop where
  agent : db.agents c.agentId = some c.agent
  asked : claimRuntime c.agent c.runtimeId = some c.claimRuntimeId
  room : c.phase = .locked ∨ db.countRunningTasks c.agentId < c.agent.maxConcurrentTasks
  row : ∀ t prepareLeaseSecs, c.phase = .claimed t prepareLeaseSecs → t ∈ db.tasks ∧
    t.status = .queued ∧ t.agentId = c.agentId ∧ t.runtimeId = some c.claimRuntimeId ∧
      ∀ t' ∈ db.tasks, t'.status.active = true → t'.agentId = c.agentId → t.conflicts t' = false

structure Sound (s : State) : Prop where
  keyed : Rows.Keyed Task.id s.db.tasks
  owned : ∀ t ∈ s.db.tasks, (s.db.agents t.agentId).isSome = true
  capacity : ∀ agentId agent, s.db.agents agentId = some agent →
    s.db.countRunningTasks agentId ≤ agent.maxConcurrentTasks
  exclusive : ∀ t ∈ s.db.tasks, ∀ t' ∈ s.db.tasks, t.status.active = true → t'.status.active = true →
    t.agentId = t'.agentId → t.conflicts t' = true → t = t'
  alone : ∀ n c m d, s.claims n = some c → s.claims m = some d → c.agentId = d.agentId → n = m
  holds : ∀ n c, s.claims n = some c → Holds s.db c

theorem Holds.calm (h : Holds db c) (hcalm : Calm db db')
    (hrow : ∀ t prepareLeaseSecs, c.phase = .claimed t prepareLeaseSecs → t ∈ db'.tasks) : Holds db' c where
  agent := by rw [hcalm.agents, h.agent]
  asked := h.asked
  room := by
    rcases h.room with hphase | hroom
    · exact .inl hphase
    · exact .inr (Nat.lt_of_le_of_lt (hcalm.count c.agentId) hroom)
  row := by
    intro t prepareLeaseSecs hphase
    obtain ⟨-, hstatus, hagent, hruntime, hfree⟩ := h.row t prepareLeaseSecs hphase
    refine ⟨hrow t prepareLeaseSecs hphase, hstatus, hagent, hruntime, ?_⟩
    intro t' ht' hactive hsame
    obtain ⟨old, hold, holdActive, hold'⟩ := hcalm.back t' ht' hactive
    rw [conflicts_congr (SameTask.refl t) hold']
    exact hfree old hold holdActive (hold'.agentId.symm.trans hsame)

/-- A step that makes no task active. -/
theorem Sound.calm (h : Sound s) (hcalm : Calm s.db db') (hlocked : ∀ t, s.lockedTask t → t ∈ db'.tasks) :
    Sound { s with db := db' } where
  keyed := hcalm.keyed h.keyed
  owned := hcalm.owned h.owned
  capacity := by
    intro agentId agent hagent
    rw [hcalm.agents] at hagent
    exact Nat.le_trans (hcalm.count agentId) (h.capacity agentId agent hagent)
  exclusive := by
    intro t ht t' ht' hactive hactive' hagent hconflicts
    obtain ⟨old, hold, holdActive, hsame⟩ := hcalm.back t ht hactive
    obtain ⟨old', hold', holdActive', hsame'⟩ := hcalm.back t' ht' hactive'
    have heq : old = old' := by
      apply h.exclusive old hold old' hold' holdActive holdActive'
      · rw [← hsame.agentId, ← hsame'.agentId, hagent]
      · rw [← conflicts_congr hsame hsame', hconflicts]
    apply (hcalm.keyed h.keyed).eq_of_key ht ht'
    rw [hsame.id, hsame'.id, heq]
  alone := h.alone
  holds := fun n c hc => (h.holds n c hc).calm hcalm fun t prepareLeaseSecs hphase =>
    hlocked t ⟨n, c, prepareLeaseSecs, hc, hphase⟩

theorem Sound.close (h : Sound s) (n : Nat) : Sound (s.setClaim n none) := by
  have hclaims : ∀ m c, (s.setClaim n none).claims m = some c → s.claims m = some c := by
    intro m c hc
    change update s.claims n none m = some c at hc
    rw [update_apply] at hc
    split at hc
    · cases hc
    · exact hc
  exact ⟨h.keyed, h.owned, h.capacity, h.exclusive,
    fun m c k d hc hd => h.alone m c k d (hclaims m c hc) (hclaims k d hd),
    fun m c hc => h.holds m c (hclaims m c hc)⟩

/-- A claim opens, or goes on. -/
theorem Sound.setClaim (h : Sound s) (hholds : Holds s.db c)
    (halone : ∀ m d, s.claims m = some d → d.agentId = c.agentId → m = n) :
    Sound (s.setClaim n (some c)) := by
  have hclaims : ∀ m d, (s.setClaim n (some c)).claims m = some d →
      (m = n ∧ d = c) ∨ s.claims m = some d := by
    intro m d hd
    change update s.claims n (some c) m = some d at hd
    rw [update_apply] at hd
    split at hd
    · rename_i hm
      exact .inl ⟨hm, (Option.some.inj hd).symm⟩
    · exact .inr hd
  refine ⟨h.keyed, h.owned, h.capacity, h.exclusive, ?_, ?_⟩
  · intro m d k e hd he hagent
    rcases hclaims m d hd with ⟨hm, hdc⟩ | hd
    · rcases hclaims k e he with ⟨hk, -⟩ | he
      · rw [hm, hk]
      · rw [hm, halone k e he (hagent.symm.trans (by rw [hdc]))]
    · rcases hclaims k e he with ⟨hk, hec⟩ | he
      · rw [hk, halone m d hd (hagent.trans (by rw [hec]))]
      · exact h.alone m d k e hd he hagent
  · intro m d hd
    rcases hclaims m d hd with ⟨-, rfl⟩ | hd
    · exact hholds
    · exact h.holds m d hd

theorem Sound.count (h : Sound s) (hc : s.claims n = some c) : Sound (s.count n c) := by
  have hholds := h.holds n c hc
  unfold State.count
  cases hphase : c.phase with
  | locked =>
    dsimp only
    split
    · exact h.close n
    · rename_i hroom
      refine h.setClaim ⟨hholds.agent, hholds.asked, .inr (Nat.lt_of_not_le hroom), ?_⟩ ?_
      · intro t prepareLeaseSecs hclaimed
        cases hclaimed
      · exact fun m d hd hagent => h.alone m d n c hd hc hagent
  | counted | claimed t prepareLeaseSecs => exact h

variable {now runtimeStaleSecs : Nat} {locked : List Nat}

/-- What `ClaimAgentTask` takes. -/
theorem claimAgentTask_spec {runtimeId : Nat}
    (h : db.claimAgentTask agentId runtimeId now runtimeStaleSecs locked = some t) :
    t ∈ db.tasks ∧ t.status = .queued ∧ t.agentId = agentId ∧ t.runtimeId = some runtimeId ∧
      ∀ t' ∈ db.tasks, t'.status.active = true → t'.agentId = agentId → t.conflicts t' = false := by
  have hmem := mem_of_find?_eq_some h
  rw [mem_filter, Bool.and_eq_true] at hmem
  obtain ⟨ht, hclaimable, -⟩ := hmem
  simp only [Db.claimable, Bool.and_eq_true, Bool.not_eq_true', any_eq_false, decide_eq_true_iff]
    at hclaimable
  obtain ⟨⟨⟨⟨⟨hagent, hruntime⟩, hstatus⟩, -⟩, -⟩, hfree⟩ := hclaimable
  refine ⟨ht, hstatus, hagent, ?_, ?_⟩
  · unfold equal at hruntime
    rw [Bool.and_eq_true, decide_eq_true_iff] at hruntime
    exact hruntime.2
  · intro t' ht' hactive hsame
    have hnot := hfree t' ht'
    by_contra hconflicts
    exact hnot ⟨⟨hsame.trans hagent.symm, hactive⟩, by simpa using hconflicts⟩

theorem Sound.take (h : Sound s) (hc : s.claims n = some c) (prepareLeaseSecs runtimeStaleSecs : Nat)
    (locked : List Nat) : Sound (s.take n c prepareLeaseSecs runtimeStaleSecs locked) := by
  have hholds := h.holds n c hc
  unfold State.take
  cases hphase : c.phase with
  | locked => exact h
  | counted =>
    dsimp only
    cases htask : s.db.claimAgentTask c.agentId c.claimRuntimeId c.now runtimeStaleSecs locked with
    | none => exact h.close n
    | some t =>
      have hroom := hholds.room
      rw [hphase] at hroom
      refine h.setClaim ⟨hholds.agent, hholds.asked, .inr ?_, ?_⟩ ?_
      · rcases hroom with hlocked | hroom
        · cases hlocked
        · exact hroom
      · intro t' secs hclaimed
        cases hclaimed
        exact claimAgentTask_spec htask
      · exact fun m d hd hagent => h.alone m d n c hd hc hagent
  | claimed t secs => exact h

/-! ## The commit of a claim -/

/-- The queue after the commit. -/
def Db.dispatched (db : Db) (t : Task) (now prepareLeaseSecs : Nat) : Db :=
  { db with tasks := Rows.update db.tasks (fun row => row.id = t.id) fun row =>
      row.dispatch now prepareLeaseSecs }

section Commit

variable {now prepareLeaseSecs : Nat}

theorem mem_dispatched (hkeyed : Rows.Keyed Task.id db.tasks) (ht : t ∈ db.tasks) {t' : Task}
    (ht' : t' ∈ (db.dispatched t now prepareLeaseSecs).tasks) :
    t' = t.dispatch now prepareLeaseSecs ∨ (t' ∈ db.tasks ∧ t'.id ≠ t.id) := by
  rcases Rows.mem_update.mp ht' with ⟨old, hold, hid, rfl⟩ | ⟨hold, hid⟩
  · rw [decide_eq_true_iff] at hid
    rw [hkeyed.eq_of_key hold ht hid]
    exact .inl rfl
  · exact .inr ⟨hold, of_decide_eq_false hid⟩

theorem dispatched_mem {t' : Task} (ht' : t' ∈ db.tasks) (hid : t'.id ≠ t.id) :
    t' ∈ (db.dispatched t now prepareLeaseSecs).tasks :=
  Rows.mem_update.mpr (.inr ⟨ht', decide_eq_false hid⟩)

theorem count_dispatched (hkeyed : Rows.Keyed Task.id db.tasks) (ht : t ∈ db.tasks) (agentId : Nat) :
    (db.dispatched t now prepareLeaseSecs).countRunningTasks agentId ≤
      db.countRunningTasks agentId + if t.agentId = agentId then 1 else 0 := by
  have hcount := Rows.countP_update db.tasks (fun row => decide (row.id = t.id))
    (fun row => row.dispatch now prepareLeaseSecs)
    (fun row => decide (row.agentId = agentId) && row.status.active)
  have hothers : db.tasks.countP (fun row => !decide (row.id = t.id) &&
      (decide (row.agentId = agentId) && row.status.active)) ≤ db.countRunningTasks agentId := by
    apply countP_mono_left
    intro row _ hrow
    rw [Bool.and_eq_true] at hrow
    exact hrow.2
  have hnew : db.tasks.countP (fun row => decide (row.id = t.id) &&
      (decide ((row.dispatch now prepareLeaseSecs).agentId = agentId) &&
        (row.dispatch now prepareLeaseSecs).status.active)) ≤ if t.agentId = agentId then 1 else 0 := by
    by_cases hagent : t.agentId = agentId
    · rw [if_pos hagent]
      apply hkeyed.countP_le_one
      intro row _ row' _ hrow hrow'
      rw [Bool.and_eq_true, decide_eq_true_iff] at hrow hrow'
      exact hrow.1.trans hrow'.1.symm
    · rw [if_neg hagent, Nat.le_zero, countP_eq_zero]
      intro row hrow hsel
      rw [Bool.and_eq_true, Bool.and_eq_true, decide_eq_true_iff, decide_eq_true_iff] at hsel
      rw [hkeyed.eq_of_key hrow ht hsel.1] at hsel
      exact hagent hsel.2.1
  unfold Db.countRunningTasks Db.dispatched
  unfold Db.countRunningTasks at hothers
  dsimp only
  omega

theorem Sound.dispatched (h : Sound s) (hc : s.claims n = some c)
    (hphase : c.phase = .claimed t prepareLeaseSecs) :
    Sound (({ s with db := s.db.dispatched t c.now prepareLeaseSecs }).setClaim n none) := by
  obtain ⟨hagent, -, hroom, hrow⟩ := h.holds n c hc
  obtain ⟨ht, -, htagent, -, hfree⟩ := hrow t prepareLeaseSecs hphase
  have hmem : ∀ {t' : Task}, t' ∈ (s.db.dispatched t c.now prepareLeaseSecs).tasks →
      t' = t.dispatch c.now prepareLeaseSecs ∨ (t' ∈ s.db.tasks ∧ t'.id ≠ t.id) :=
    fun ht' => mem_dispatched h.keyed ht ht'
  have hcount : ∀ agentId, (s.db.dispatched t c.now prepareLeaseSecs).countRunningTasks agentId ≤
      s.db.countRunningTasks agentId + if t.agentId = agentId then 1 else 0 :=
    count_dispatched h.keyed ht
  have hother : ∀ m d, update s.claims n none m = some d →
      s.claims m = some d ∧ d.agentId ≠ c.agentId := by
    intro m d hd
    rw [update_apply] at hd
    split at hd
    · cases hd
    · rename_i hm
      exact ⟨hd, fun hsame => hm (h.alone m d n c hd hc hsame)⟩
  refine ⟨h.keyed.update _ fun _ _ => rfl, ?_, ?_, ?_, ?_, ?_⟩
  · intro t' ht'
    rcases hmem ht' with rfl | ⟨hold, -⟩
    · exact h.owned t ht
    · exact h.owned t' hold
  · intro agentId agent hagent'
    by_cases hsame : t.agentId = agentId
    · have hbound := hcount agentId
      rw [if_pos hsame] at hbound
      rw [htagent] at hsame
      subst hsame
      rcases hroom with hlocked | hroom
      · rw [hphase] at hlocked
        cases hlocked
      · have heq : agent = c.agent := Option.some.inj (hagent'.symm.trans hagent)
        rw [heq]
        exact Nat.le_trans hbound hroom
    · have hbound := hcount agentId
      rw [if_neg hsame] at hbound
      exact Nat.le_trans hbound (h.capacity agentId agent hagent')
  · intro u hu v hv hactive hactive' hsame hconflicts
    rcases hmem hu with rfl | ⟨hu, -⟩
    · rcases hmem hv with rfl | ⟨hv, -⟩
      · rfl
      · have hno := hfree v hv hactive' (hsame.symm.trans htagent)
        exact absurd hconflicts (by rw [show (t.dispatch c.now prepareLeaseSecs).conflicts v =
          t.conflicts v from rfl, hno]; decide)
    · rcases hmem hv with rfl | ⟨hv, -⟩
      · have hno := hfree u hu hactive (hsame.trans htagent)
        rw [conflicts_symm] at hno
        exact absurd hconflicts (by rw [show u.conflicts (t.dispatch c.now prepareLeaseSecs) =
          u.conflicts t from rfl, hno]; decide)
      · exact h.exclusive u hu v hv hactive hactive' hsame hconflicts
  · exact fun m d k e hd he => h.alone m d k e (hother m d hd).1 (hother k e he).1
  · intro m d hd
    obtain ⟨hd, hne⟩ := hother m d hd
    obtain ⟨hdagent, hdasked, hdroom, hdrow⟩ := h.holds m d hd
    refine ⟨hdagent, hdasked, ?_, ?_⟩
    · rcases hdroom with hlocked | hdroom
      · exact .inl hlocked
      · have hbound := hcount d.agentId
        rw [if_neg fun hsame => hne (hsame.symm.trans htagent)] at hbound
        exact .inr (Nat.lt_of_le_of_lt hbound hdroom)
    · intro u secs hclaimed
      obtain ⟨hu, hustatus, huagent, huruntime, hufree⟩ := hdrow u secs hclaimed
      refine ⟨dispatched_mem hu ?_, hustatus, huagent, huruntime, ?_⟩
      · intro hid
        rw [h.keyed.eq_of_key hu ht hid, htagent] at huagent
        exact hne huagent.symm
      · intro v hv hactive hsame
        rcases hmem hv with rfl | ⟨hv, -⟩
        · exact absurd (htagent.symm.trans hsame).symm hne
        · exact hufree v hv hactive hsame

end Commit

theorem commit_cases (s : State) (n : Nat) (c : Claim) : s.commit n c = ([], s) ∨
    ∃ t prepareLeaseSecs, c.phase = .claimed t prepareLeaseSecs ∧
      s.commit n c = ([t.dispatch c.now prepareLeaseSecs],
        ({ s with db := s.db.dispatched t c.now prepareLeaseSecs }).setClaim n none) := by
  unfold State.commit
  cases hphase : c.phase with
  | claimed t prepareLeaseSecs => exact .inr ⟨t, prepareLeaseSecs, rfl, rfl⟩
  | _ => exact .inl rfl

/-! ## Agents -/

theorem Sound.saveAgent (h : Sound s) {agent : Agent} (hunlocked : ¬ s.lockedAgent agentId)
    (hlimit : ∀ old, s.db.agents agentId = some old →
      agent.maxConcurrentTasks = old.maxConcurrentTasks) :
    Sound { s with db := { s.db with agents := update s.db.agents agentId (some agent) } } := by
  refine ⟨h.keyed, ?_, ?_, h.exclusive, h.alone, ?_⟩
  · intro t ht
    show (update s.db.agents agentId (some agent) t.agentId).isSome = true
    rw [update_apply]
    split
    · rfl
    · exact h.owned t ht
  · intro other agent' hagent
    change update s.db.agents agentId (some agent) other = some agent' at hagent
    show s.db.countRunningTasks other ≤ agent'.maxConcurrentTasks
    rw [update_apply] at hagent
    split at hagent
    · rename_i hsame
      cases hagent
      cases hold : s.db.agents agentId with
      | some old =>
        rw [hlimit old hold, hsame]
        exact h.capacity agentId old hold
      | none =>
        have hnone : s.db.countRunningTasks other = 0 := by
          unfold Db.countRunningTasks
          rw [countP_eq_zero]
          intro t ht hactive
          rw [Bool.and_eq_true, decide_eq_true_iff] at hactive
          have howned := h.owned t ht
          rw [hactive.1, hsame, hold] at howned
          cases howned
        rw [hnone]
        exact Nat.zero_le _
    · exact h.capacity other agent' hagent
  · intro n c hc
    obtain ⟨hagent, hasked, hroom, hrow⟩ := h.holds n c hc
    refine ⟨?_, hasked, hroom, hrow⟩
    show update s.db.agents agentId (some agent) c.agentId = some c.agent
    rw [update_apply, if_neg fun hsame => hunlocked ⟨n, c, hc, hsame⟩]
    exact hagent

/-! ## Steps -/

theorem Sound.row_mem (h : Sound s) (hlocked : s.lockedTask t) : t ∈ s.db.tasks := by
  obtain ⟨n, c, prepareLeaseSecs, hc, hphase⟩ := hlocked
  exact ((h.holds n c hc).row t prepareLeaseSecs hphase).1

variable {event : Event}

theorem Sound.step {c : Config State Event (List Task)} (h : Sound c.state)
    (hallowed : Allowed c event) : Sound (advance State.step c event).state := by
  show Sound (c.state.step event).2
  cases event with
  | enqueue now fence e =>
    exact h.calm (enqueue_calm c.state.db now fence e) fun t ht => enqueue_mem (h.row_mem ht)
  | run now st =>
    exact h.calm (run_calm c.state.db now st) fun t ht => run_mem (h.row_mem ht) (hallowed t ht)
  | deleteUnstartedQuickCreateRetryTask taskId =>
    exact h.calm (delete_calm c.state.db taskId) fun t ht => delete_mem (h.row_mem ht) (hallowed t ht)
  | claim n agentId runtimeId now =>
    simp only [State.step]
    cases hagent : c.state.db.agents agentId with
    | none => exact h
    | some agent =>
      dsimp only
      cases hasked : claimRuntime agent runtimeId with
      | none => exact h
      | some claimRuntimeId =>
        refine h.setClaim ⟨hagent, hasked, .inl rfl, ?_⟩ ?_
        · intro t prepareLeaseSecs hclaimed
          cases hclaimed
        · exact fun m d hd hsame => absurd ⟨m, d, hd, hsame⟩ hallowed.2
  | countRunningTasks n =>
    simp only [State.step]
    cases hc : c.state.claims n with
    | none => exact h
    | some claim => exact h.count hc
  | claimAgentTask n prepareLeaseSecs runtimeStaleSecs locked =>
    simp only [State.step]
    cases hc : c.state.claims n with
    | none => exact h
    | some claim => exact h.take hc prepareLeaseSecs runtimeStaleSecs locked
  | commitClaim n =>
    simp only [State.step]
    cases hc : c.state.claims n with
    | none => exact h
    | some claim =>
      dsimp only
      rcases commit_cases c.state n claim with hcommit | ⟨t, prepareLeaseSecs, hphase, hcommit⟩
      · rw [hcommit]
        exact h
      · rw [hcommit]
        exact h.dispatched hc hphase
  | rollbackClaim n => exact h.close n
  | saveAgent agentId agent => exact h.saveAgent hallowed.1 hallowed.2
  | saveRuntime runtimeId runtime =>
    refine h.calm ?_ fun t ht => h.row_mem ht
    exact ⟨rfl, fun hk => hk, fun ho => ho, fun _ => Nat.le_refl _, fun t ht hactive => ⟨t, ht, hactive, .refl t⟩⟩

theorem Sound.start : Sound State.start := by
  refine ⟨nodup_nil, ?_, ?_, ?_, ?_, ?_⟩
  · exact fun t ht => absurd ht not_mem_nil
  · intro agentId agent hagent
    cases hagent
  · exact fun t ht => absurd ht not_mem_nil
  · intro n c m d hn
    cases hn
  · intro n c hn
    cases hn

theorem sound {c : Config State Event (List Task)}
    (h : Reach State.step Allowed (start State.start) c) : Sound c.state :=
  h.invariant (I := fun c => Sound c.state) (fun _ _ hallowed hd => hd.step hallowed) .start

/-! ## The life of a task over a run -/

theorem step_onward (h : Sound s) : Onward s.db (s.step event).2.db := by
  have hsame : Onward s.db s.db := .of_mem fun _ ht _ => ht
  cases event with
  | enqueue now fence e => exact .of_mem fun t ht _ => enqueue_mem ht
  | run now st => exact run_onward s.db now st
  | deleteUnstartedQuickCreateRetryTask taskId =>
    exact .of_mem fun t ht hbegun => delete_mem ht (unstarted_not_begun hbegun)
  | claim n agentId runtimeId now =>
    simp only [State.step]
    split
    · exact hsame
    · split <;> exact hsame
  | countRunningTasks n =>
    simp only [State.step]
    split
    · exact hsame
    · unfold State.count
      split
      · split <;> exact hsame
      · exact hsame
  | claimAgentTask n prepareLeaseSecs runtimeStaleSecs locked =>
    simp only [State.step]
    split
    · exact hsame
    · unfold State.take
      split
      · split <;> exact hsame
      · exact hsame
  | commitClaim n =>
    simp only [State.step]
    cases hc : s.claims n with
    | none => exact hsame
    | some c =>
      dsimp only
      rcases commit_cases s n c with hcommit | ⟨t, prepareLeaseSecs, hphase, hcommit⟩
      · rw [hcommit]
        exact hsame
      · rw [hcommit]
        obtain ⟨ht, hstatus, -⟩ := (h.holds n c hc).row t prepareLeaseSecs hphase
        refine .of_mem fun u hu hbegun => dispatched_mem hu fun hid => ?_
        rw [h.keyed.eq_of_key hu ht hid, hstatus] at hbegun
        cases hbegun
  | rollbackClaim n | saveAgent agentId agent | saveRuntime runtimeId runtime => exact hsame

theorem onward {c d : Config State Event (List Task)} (hc : Sound c.state)
    (h : Reach State.step Allowed c d) : Onward c.state.db d.state.db :=
  Reach.rel (I := fun c => Sound c.state) (R := fun c d => Onward c.state.db d.state.db)
    (fun _ => .of_mem fun _ ht _ => ht) (fun _ _ _ => Onward.trans)
    (fun _ _ hallowed hd => hd.step hallowed) (fun _ _ _ hd => step_onward hd) h hc

/-- The step moves the task to `running`. -/
def State.starts (s : State) (event : Event) (id : Nat) : Prop :=
  (∃ t ∈ (s.step event).2.db.tasks, t.id = id ∧ t.status = .running) ∧
    ¬ ∃ t ∈ s.db.tasks, t.id = id ∧ t.status = .running

/-- A task that has begun is not started. -/
theorem not_starts (h : Sound s) (hnext : Sound (s.step event).2) (ht : t ∈ s.db.tasks)
    (hbegun : t.status.begun = true) : ¬ s.starts event t.id := by
  rintro ⟨⟨started, hmem, hid, hrunning⟩, hbefore⟩
  obtain ⟨t', ht', hid', -, hover⟩ := step_onward h t ht hbegun
  have heq : started = t' := hnext.keyed.eq_of_key hmem ht' (hid.trans hid'.symm)
  have hnot : t.status ≠ .running := fun hrunning => hbefore ⟨t, ht, rfl, hrunning⟩
  have hsame := hover (by
    unfold Status.begun at hbegun
    rw [decide_eq_false hnot] at hbegun
    exact hbegun)
  rw [heq, hsame] at hrunning
  exact hnot hrunning

/-! ## What a claim returns -/

/-- The runtimes that the answer of a step is for. -/
def State.askedBy (s : State) : Event → Option (List Nat)
  | .run _ (.reclaimStaleDispatchedTasksForRuntimes runtimeIds _ _ _ _ _) => some runtimeIds
  | .commitClaim n => (s.claims n).map fun c =>
    match c.runtimeId with
    | some asked => [asked]
    | none => c.agent.runtimeId.toList
  | _ => none

variable {runtimeIds : List Nat}

theorem reclaimed_on {claimRecoverySecs prepareLeaseSecs maxTasks : Nat}
    (ht : t ∈ (db.run (Statement.change now (.reclaimStaleDispatchedTasksForRuntimes runtimeIds claimRecoverySecs prepareLeaseSecs runtimeStaleSecs maxTasks locked))).2) :
    ∃ runtimeId ∈ runtimeIds, t.runtimeId = some runtimeId := by
  have hrows : ∀ change : Change, t ∈ (db.run change).2 →
      ∃ old, change.selects db old = true ∧ t = change.set old := by
    intro change hmem
    unfold Db.run at hmem
    dsimp only at hmem
    split at hmem
    · obtain ⟨old, hold, rfl⟩ := mem_map.mp hmem
      exact ⟨old, (mem_filter.mp hold).2, rfl⟩
    · cases hmem
  obtain ⟨old, hselects, rfl⟩ := hrows _ ht
  have heligible := mem_reclaimed (contains_iff_mem.mp hselects)
  simp only [Db.reclaimable, Task.onAny, Bool.and_eq_true] at heligible
  obtain ⟨runtimeId, hruntime, hmem⟩ := (Option.any_eq_true _ _).mp heligible.1.1.1.1.1.1
  exact ⟨runtimeId, contains_iff_mem.mp hmem, hruntime⟩

theorem claimed_on {t : Task} (h : Sound s)
    (hasked : s.askedBy (.commitClaim n) = some runtimeIds) (ht : t ∈ (s.step (.commitClaim n)).1) :
    ∃ runtimeId ∈ runtimeIds, t.runtimeId = some runtimeId := by
  obtain ⟨c, hc, rfl⟩ := Option.map_eq_some_iff.mp hasked
  simp only [State.step, hc] at ht
  rcases commit_cases s n c with hcommit | ⟨row, prepareLeaseSecs, hphase, hcommit⟩
  · rw [hcommit] at ht
    cases ht
  · rw [hcommit, mem_singleton] at ht
    obtain ⟨-, -, -, hruntime, -⟩ := (h.holds n c hc).row row prepareLeaseSecs hphase
    refine ⟨c.claimRuntimeId, ?_, by rw [ht]; exact hruntime⟩
    have hclaim := (h.holds n c hc).asked
    unfold claimRuntime at hclaim
    cases hasked : c.runtimeId with
    | none =>
      rw [hasked] at hclaim
      dsimp only at hclaim
      rw [hclaim]
      exact mem_singleton_self _
    | some asked =>
      rw [hasked] at hclaim
      dsimp only at hclaim
      split at hclaim
      · rw [Option.some.inj hclaim]
        exact mem_singleton_self _
      · cases hclaim

/-! ## Claims are bounded -/

theorem conflicts_of {t t' : Task} (h : (∃ issueId, t.issueId = some issueId ∧ t'.issueId = some issueId) ∨
    (∃ chatSessionId, t.chatSessionId = some chatSessionId ∧ t'.chatSessionId = some chatSessionId) ∨
      (t.quickCreate = true ∧ t'.quickCreate = true)) : t.conflicts t' = true := by
  unfold Task.conflicts equal
  rcases h with ⟨issueId, ht, ht'⟩ | ⟨chatSessionId, ht, ht'⟩ | ⟨ht, ht'⟩
  · simp [ht, ht']
  · simp [ht, ht']
  · simp [ht, ht']

theorem claims_bounded {c : Config State Event (List Task)}
    (h : Reach State.step Allowed (start State.start) c) :
    (∀ agentId agent, c.state.db.agents agentId = some agent →
      c.state.db.tasks.countP (fun t => t.agentId = agentId && t.status.active) ≤
        agent.maxConcurrentTasks) ∧
    (∀ t ∈ c.state.db.tasks, ∀ t' ∈ c.state.db.tasks, t.status.active = true → t'.status.active = true →
      t.agentId = t'.agentId →
      (∃ issueId, t.issueId = some issueId ∧ t'.issueId = some issueId) ∨
        (∃ chatSessionId, t.chatSessionId = some chatSessionId ∧ t'.chatSessionId = some chatSessionId) ∨
        (t.quickCreate = true ∧ t'.quickCreate = true) → t = t') ∧
    (∀ event, Allowed c event → ∀ runtimeIds, c.state.askedBy event = some runtimeIds →
      ∀ t ∈ (c.state.step event).1, ∃ runtimeId ∈ runtimeIds, t.runtimeId = some runtimeId) ∧
    (∀ d, Reach State.step Allowed c d → ∀ t ∈ c.state.db.tasks, t.status.over = true →
      ∀ t' ∈ d.state.db.tasks, t'.id = t.id → t'.status = t.status) ∧
    ∀ event, Allowed c event → ∀ id, c.state.starts event id →
      ∀ d, Reach State.step Allowed (advance State.step c event) d → ∀ event', Allowed d event' →
        ¬ d.state.starts event' id := by
  have hc := sound h
  refine ⟨hc.capacity, ?_, ?_, ?_, ?_⟩
  · intro t ht t' ht' hactive hactive' hagent hconflicts
    exact hc.exclusive t ht t' ht' hactive hactive' hagent (conflicts_of hconflicts)
  · intro event _ runtimeIds hasked t ht
    cases event with
    | run now st =>
      cases st with
      | reclaimStaleDispatchedTasksForRuntimes ids claimRecoverySecs prepareLeaseSecs
          runtimeStaleSecs maxTasks locked =>
          cases hasked
          exact reclaimed_on ht
      | _ => cases hasked
    | commitClaim n => exact claimed_on hc hasked ht
    | _ => cases hasked
  · intro d hd t ht hover t' ht' hid
    have hbegun : t.status.begun = true := by
      unfold Status.begun
      rw [hover, Bool.or_true]
    obtain ⟨u, hu, huid, -, hsame⟩ := onward hc hd t ht hbegun
    rw [(sound (h.trans hd)).keyed.eq_of_key ht' hu (hid.trans huid.symm)]
    exact hsame hover
  · intro event hallowed id hstarts d hd event' hallowed'
    obtain ⟨⟨t, ht, hid, hrunning⟩, -⟩ := hstarts
    have hnext := h.tail event hallowed
    have hbegun : t.status.begun = true := by rw [hrunning]; rfl
    obtain ⟨u, hu, huid, hubegun, -⟩ := onward (sound hnext) hd t ht hbegun
    have hsound := sound (hnext.trans hd)
    rw [← hid, ← huid]
    exact not_starts hsound (hsound.step hallowed') hu hubegun

/-- A task of an agent with room for one is claimed and started. -/
def startedRun : List Event :=
  [.saveRuntime 3 ⟨true, none, true, some 0, 0⟩, .saveAgent 1 ⟨some 3, none, 1⟩,
    .enqueue 0 true (.createAgentTask 7 1 (some 3) 5 0 none []), .claim 0 1 (some 3) 10,
    .countRunningTasks 0, .claimAgentTask 0 60 30 [], .commitClaim 0, .run 20 (.startAgentTask 7)]

theorem startedRun_allowed : AllAllowed State.step Allowed (start State.start) startedRun := by
  refine ⟨trivial, ⟨?_, ?_⟩, trivial, ⟨rfl, ?_⟩, trivial, trivial, trivial, ?_, trivial⟩
  · rintro ⟨n, c, hc, -⟩
    cases hc
  · intro old hold
    cases hold
  · rintro ⟨n, c, hc, -⟩
    cases hc
  · rintro t ⟨n, c, prepareLeaseSecs, hc, -⟩
    change update (update (update (update (fun _ => none) 0 _) 0 _)
      0 _) 0 none n = some c at hc
    by_cases hn : n = 0 <;> simp [hn] at hc

theorem claims_bounded_started :
    (exec State.step (start State.start) startedRun).state.db.tasks.countP
      (fun t => t.agentId = 1 && t.status.active) ≤ 1 ∧
    ∀ t ∈ (exec State.step (start State.start) startedRun).state.db.tasks,
      ∀ t' ∈ (exec State.step (start State.start) startedRun).state.db.tasks,
      t.status = .running → t'.status = .running → t.agentId = t'.agentId →
      (∃ issueId, t.issueId = some issueId ∧ t'.issueId = some issueId) → t = t' := by
  have hbounded := claims_bounded (reach_exec startedRun_allowed)
  refine ⟨hbounded.1 1 ⟨some 3, none, 1⟩ rfl, ?_⟩
  intro t ht t' ht' hrunning hrunning' hagent hissue
  exact hbounded.2.1 t ht t' ht' (by rw [hrunning]; rfl) (by rw [hrunning']; rfl) hagent (.inl hissue)

end ClawMessenger.Ports.TaskQueue
