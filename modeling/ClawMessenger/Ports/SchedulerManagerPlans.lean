import ClawMessenger.Ports.SchedulerManagerRepair

/-!
# Plans that are due for another attempt

An every-plan job takes its cursor from the row with the greatest plan time.  A
failed plan is returned again by a planning after its retry time if and only if
it is that row: once a newer plan of the scope has a row, the older one is not
planned any more, whatever attempts it has left.

Along a run rows stay, so the first planning that finds a plan due decides
whether any planning returns it (`retry_planned_iff`).
-/

namespace ClawMessenger.Ports.SchedulerManager

open Verified Verified.Machine Verified.Rows SchedulerStore List

/-! ## Plan times -/

theorem timestamptz_le (t : Time) : timestamptz t ≤ t :=
  sub_le_self t (Int.emod_nonneg t (by decide))

theorem floorPlan_le (eligible : Time) (cadence : Duration) : floorPlan eligible cadence ≤ eligible := by
  unfold floorPlan
  split
  · exact le_refl eligible
  · rename_i hpos
    exact sub_le_self eligible (Int.emod_nonneg eligible (ne_of_gt (not_le.mp hpos)))

theorem floorPlan_mono {a b : Time} (h : a ≤ b) (cadence : Duration) :
    floorPlan a cadence ≤ floorPlan b cadence := by
  unfold floorPlan
  split
  · exact h
  · rename_i hpos
    have hcadence : 0 < cadence := not_le.mp hpos
    have hmul : cadence * (a / cadence) ≤ cadence * (b / cadence) :=
      Int.mul_le_mul_of_nonneg_left (Int.ediv_le_ediv hcadence h) hcadence.le
    have ha := Int.mul_ediv_add_emod a cadence
    have hb := Int.mul_ediv_add_emod b cadence
    linarith

theorem latestDue_mono (job : JobSpec) {a b : Time} (h : a ≤ b) :
    latestDue job a ≤ latestDue job b :=
  floorPlan_mono (sub_le_sub_right h job.scheduleDelay) job.cadence

variable {n : Nat} {info : LatestPlanInfo} {planning : Planning} {row : Execution}
  {registry : List JobSpec} {action : Action} {c : Run}

theorem mem_planTimes {cadence latest t : Int} {start : Int} (hcadence : 0 ≤ cadence)
    (h : t ∈ planTimes cadence latest n start) : start ≤ t ∧ t ≤ latest := by
  induction n generalizing start with
  | zero => exact absurd h not_mem_nil
  | succ n ih =>
    unfold planTimes at h
    split at h
    · exact absurd h not_mem_nil
    · rename_i hle
      have hstart : start ≤ latest := not_lt.mp hle
      rcases mem_cons.mp h with heq | hrest
      · rw [heq]
        exact ⟨le_refl start, hstart⟩
      · have hlater := ih hrest
        exact ⟨by linarith, hlater.2⟩

theorem start_mem_planTimes {cadence latest : Int} {start : Int} (hn : 0 < n)
    (h : start ≤ latest) : start ∈ planTimes cadence latest n start := by
  cases n with
  | zero => exact absurd hn (Nat.lt_irrefl 0)
  | succ n =>
    unfold planTimes
    rw [if_neg (not_lt.mpr h)]
    exact mem_cons_self

/-- The built-in planner returns nothing that is not due yet. -/
theorem plansForTick_le {job : JobSpec} {scope : Scope} {now : Time} {plans : List Time}
    (hbuiltIn : job.plansForScope = none) (hcadence : 0 < job.cadence)
    (h : plansForTick job scope now info = .ok plans) :
    ∀ t ∈ plans, t ≤ latestDue job now := by
  intro t ht
  unfold plansForTick at h
  rw [hbuiltIn] at h
  dsimp only at h
  split at h
  · injection h with h
    rw [← h] at ht
    exact absurd ht not_mem_nil
  · split at h
    · injection h with h
      rw [← h] at ht
      rw [mem_singleton.mp ht]
    · injection h with h
      rw [← h] at ht
      exact (mem_planTimes (Int.le_of_lt hcadence) ht).2
    · cases h

/-! ## The row with the greatest plan time -/

/-- What the query has found after some rows. -/
structure Greatest (rows : Table) (jobName : String) (scope : Scope) (best : Option Execution) :
    Prop where
  mem : ∀ row, best = some row → row ∈ rows ∧ row.jobName = jobName ∧ row.scope = scope
  bound : ∀ row ∈ rows, row.jobName = jobName → row.scope = scope →
    ∃ b, best = some b ∧ row.planTime ≤ b.planTime

theorem latestRow_greatest (rows : Table) (jobName : String) (scope : Scope) :
    Greatest rows jobName scope (latestRow rows jobName scope) := by
  unfold latestRow
  induction rows using reverseRecOn with
  | nil =>
    refine ⟨?_, ?_⟩
    · intro row hrow
      cases hrow
    · intro row hrow
      exact absurd hrow not_mem_nil
  | append_singleton rows row ih =>
    rw [foldl_append, foldl_cons, foldl_nil]
    split
    · rename_i hnew
      obtain ⟨hjob, hscope, hbest⟩ := hnew
      refine ⟨?_, ?_⟩
      · intro other hother
        rw [← Option.some.inj hother]
        exact ⟨mem_append_right _ (mem_singleton_self _), hjob, hscope⟩
      · intro other hother hjob' hscope'
        refine ⟨row, rfl, ?_⟩
        rcases mem_append.mp hother with hold | hmine
        · obtain ⟨b, hb, hle⟩ := ih.bound other hold hjob' hscope'
          rw [hb] at hbest
          have hlt : b.planTime < row.planTime := by simpa using hbest
          exact le_trans hle hlt.le
        · rw [mem_singleton.mp hmine]
    · rename_i hold
      refine ⟨?_, ?_⟩
      · intro other hother
        obtain ⟨hmem, hrest⟩ := ih.mem other hother
        exact ⟨mem_append_left _ hmem, hrest⟩
      · intro other hother hjob' hscope'
        rcases mem_append.mp hother with hmem | hmine
        · exact ih.bound other hmem hjob' hscope'
        · rw [mem_singleton.mp hmine] at hjob' hscope' ⊢
          -- the row is of the scope, so what was found before is not older
          have hnot : ¬∀ b, rows.foldl (fun best row =>
              if row.jobName = jobName ∧ row.scope = scope ∧
                best.all (fun b => decide (b.planTime < row.planTime)) then some row else best)
              none = some b → b.planTime < row.planTime := by
            intro hall
            apply hold
            refine ⟨hjob', hscope', ?_⟩
            rw [Option.all_eq_true]
            intro b hb
            simpa using hall b hb
          push Not at hnot
          obtain ⟨b, hb, hle⟩ := hnot
          exact ⟨b, hb, hle⟩

/-! ## One planning -/

/-- The planning is after the retry time of a failed plan, which has attempts left
and is still in the window. -/
structure Due (planning : Planning) (row : Execution) : Prop where
  builtIn : planning.job.plansForScope = none
  everyPlan : planning.job.catchUpMode = .everyPlan
  mem : row ∈ planning.rows
  job : row.jobName = planning.job.name
  scope : row.scope = planning.scope
  failed : row.status = .failed
  left : row.attempt < row.maxAttempts
  retry : row.nextRetryAt.getD planning.now ≤ planning.now
  /-- The tick has read the time after the attempt has started. -/
  later : row.startedAt ≤ planning.now
  window : oldestAllowed planning.job planning.now (latestDue planning.job planning.now) ≤
    row.planTime

/-- No newer plan of the scope has a row. -/
def Newest (planning : Planning) (row : Execution) : Prop :=
  ∀ other ∈ planning.rows, other.jobName = row.jobName → other.scope = row.scope →
    other.planTime ≤ row.planTime

/-- What a tick has planned. -/
structure Planned (registry : List JobSpec) (planning : Planning) : Prop where
  job : planning.job ∈ registry
  keys : Keyed Execution.key planning.rows
  plans : plansForTick planning.job planning.scope planning.now
    (latestPlan planning.rows planning.job.name planning.scope) = .ok planning.plans
  /-- A plan was due when its attempt was started. -/
  due : planning.job.plansForScope = none → ∀ row ∈ planning.rows,
    row.jobName = planning.job.name → row.planTime ≤ latestDue planning.job row.startedAt

theorem plansForTick_everyPlan {job : JobSpec} {scope : Scope} {now : Time} {plans : List Time}
    (hbuiltIn : job.plansForScope = none) (hmode : job.catchUpMode = .everyPlan)
    (h : plansForTick job scope now info = .ok plans) :
    plans = planTimes job.cadence (latestDue job now) job.maxPlansPerTick.toNat
      (firstPlan job info now (latestDue job now)) := by
  have hfloor : ¬now - job.scheduleDelay < latestDue job now := not_lt.mpr (floorPlan_le _ _)
  unfold plansForTick at h
  rw [hbuiltIn] at h
  rw [if_neg hfloor, hmode] at h
  injection h with h
  exact h.symm

theorem firstPlan_of_window {job : JobSpec} {now latest : Time}
    (h : oldestAllowed job now latest ≤ resumeAt job info now latest) :
    firstPlan job info now latest = resumeAt job info now latest := by
  unfold firstPlan
  rw [if_neg (not_lt.mpr h)]

/-- The failed plan with the greatest plan time is where the job resumes. -/
theorem resumeAt_of_due (h : Due planning row) (hfound : info.found = true)
    (hplan : info.planTime = row.planTime) (hstatus : info.status = row.status)
    (hattempt : info.attempt = row.attempt) (hmax : info.maxAttempts = row.maxAttempts)
    (hretry : info.nextRetryAt = row.nextRetryAt.getD 0)
    (latest : Time) : resumeAt planning.job info planning.now latest = row.planTime := by
  have heligible : info.retryEligible planning.now = true := by
    unfold LatestPlanInfo.retryEligible
    rw [hfound, hstatus, h.failed, hattempt, hmax, hretry]
    have hleft : ¬row.maxAttempts ≤ row.attempt := not_le.mpr h.left
    cases hnext : row.nextRetryAt with
    | none => simp [hleft]
    | some t =>
      have hle : t ≤ planning.now := by
        have hretry' := h.retry
        rw [hnext] at hretry'
        exact hretry'
      simp [hleft, hle]
  unfold resumeAt
  rw [hfound, heligible, hplan]
  rfl

/-- A planning returns a due plan if and only if it is the newest of its scope. -/
theorem planned_iff (hvalid : ∀ job ∈ registry, validate job = true)
    (hplanned : Planned registry planning)
    (h : Due planning row) : row.planTime ∈ planning.plans ↔ Newest planning row := by
  have hjob := hvalid planning.job hplanned.job
  simp only [validate, h.builtIn, h.everyPlan, Option.isSome_none, Bool.false_or, bne_self_eq_false,
    Bool.and_eq_true, decide_eq_true_eq] at hjob
  have hcadence : 0 < planning.job.cadence := hjob.1.1.1.1.1.1.2
  have hmax : 0 < planning.job.maxPlansPerTick.toNat := by
    omega
  have hgreatest := latestRow_greatest planning.rows planning.job.name planning.scope
  obtain ⟨best, hbest, hle⟩ := hgreatest.bound row h.mem h.job h.scope
  obtain ⟨hmem, hbestJob, hbestScope⟩ := hgreatest.mem best hbest
  rw [plansForTick_everyPlan h.builtIn h.everyPlan hplanned.plans]
  have hinfo : latestPlan planning.rows planning.job.name planning.scope =
      { found := true
        planTime := best.planTime
        status := best.status
        attempt := best.attempt
        maxAttempts := best.maxAttempts
        nextRetryAt := best.nextRetryAt.getD 0 } := by
    unfold latestPlan
    rw [hbest]
  rw [hinfo]
  constructor
  · intro hreturned other hother hotherJob hotherScope
    by_contra hnewer
    -- a newer row has moved the cursor past this one
    obtain ⟨b, hb, hbound⟩ := hgreatest.bound other hother (by rw [hotherJob, h.job])
      (by rw [hotherScope, h.scope])
    rw [hbest] at hb
    rw [← Option.some.inj hb] at hbound
    have hlt : row.planTime < best.planTime := lt_of_lt_of_le (not_le.mp hnewer) hbound
    have hresume : best.planTime ≤ resumeAt planning.job
        { found := true
          planTime := best.planTime
          status := best.status
          attempt := best.attempt
          maxAttempts := best.maxAttempts
          nextRetryAt := best.nextRetryAt.getD 0 } planning.now
        (latestDue planning.job planning.now) := by
      unfold resumeAt
      split
      · exact le_refl _
      · show best.planTime ≤ best.planTime + planning.job.cadence
        exact le_add_of_nonneg_right hcadence.le
    rw [firstPlan_of_window (le_trans h.window (le_trans hlt.le hresume))] at hreturned
    have hstart := (mem_planTimes hcadence.le hreturned).1
    exact absurd (lt_of_lt_of_le hlt (le_trans hresume hstart)) (lt_irrefl _)
  · intro hnewest
    have hsame : best = row := by
      apply hplanned.keys.eq_of_key hmem h.mem
      have htime : best.planTime = row.planTime :=
        le_antisymm (hnewest best hmem (by rw [hbestJob, h.job]) (by rw [hbestScope, h.scope])) hle
      unfold Execution.key
      rw [hbestJob, h.job, hbestScope, h.scope, htime]
    rw [hsame]
    have hresume : resumeAt planning.job
        { found := true
          planTime := row.planTime
          status := row.status
          attempt := row.attempt
          maxAttempts := row.maxAttempts
          nextRetryAt := row.nextRetryAt.getD 0 } planning.now
        (latestDue planning.job planning.now) = row.planTime :=
      resumeAt_of_due h rfl rfl rfl rfl rfl rfl _
    rw [firstPlan_of_window (by rw [hresume]; exact h.window), hresume]
    apply start_mem_planTimes hmax
    exact le_trans (hplanned.due h.builtIn row h.mem h.job) (latestDue_mono _ h.later)

/-! ## Plannings along a run -/

def Answer.planning? : Answer → Option Planning
  | .planned planning => some planning
  | _ => none

def plannings (past : List (Action × Answer)) : List Planning :=
  past.filterMap fun e => e.2.planning?

def SamePlan (row row' : Execution) : Prop := row'.key = row.key

theorem samePlan_refl (row : Execution) : SamePlan row row := rfl

theorem SamePlan.trans (a b c : Execution) (h : SamePlan a b) (h' : SamePlan b c) : SamePlan a c :=
  Eq.trans h' h

/-- Every plan that has a row still has one. -/
def Kept (rows rows' : Table) : Prop := Grows SamePlan rows rows'

theorem Kept.refl (rows : Table) : Kept rows rows := Grows.refl samePlan_refl rows

theorem Kept.trans {rows rows' rows'' : Table} (h : Kept rows rows') (h' : Kept rows' rows'') :
    Kept rows rows'' :=
  Grows.trans SamePlan.trans h h'

theorem execute_kept (rows : Table) (statement : Statement) :
    Kept rows (execute rows statement).2 := by
  have heffect := execute_effect rows statement
  generalize (execute rows statement).1 = reply, (execute rows statement).2 = rows' at heffect ⊢
  cases heffect with
  | nothing _ _ _ => exact Kept.refl rows
  | inserted => exact Grows.insert samePlan_refl _ _
  | stolen =>
    apply Grows.update samePlan_refl
    intro row _ _
    rfl
  | swept =>
    apply Grows.update samePlan_refl
    intro row _ _
    rfl
  | held id leaseToken f _ hwrite =>
    apply Grows.update samePlan_refl
    intro row _ hp
    have hstatus : row.status ≠ .success := by
      rw [(holds_iff.mp hp).2.2]
      simp
    exact (hwrite.step hstatus).key

theorem step_kept (s : State) (action : Action) :
    Kept s.rows (step s action).2.rows := by
  rcases step_cases s action with hsame | ⟨now, _, hclock⟩ | ⟨n, job, now, runnerId, _, hbegun⟩ |
    ⟨n, tick, _, _, hturn⟩
  · rw [hsame]
    exact Kept.refl _
  · rw [hclock]
    exact Kept.refl _
  · rw [hbegun]
    exact Kept.refl _
  · rcases hturn.rows with hrows | ⟨statement, _, hrows⟩
    · rw [hrows]
      exact Kept.refl _
    · rw [hrows]
      exact execute_kept _ _

/-- The planning that a step answers with has read the table. -/
structure Reads (s : State) (planning : Planning) : Prop where
  tick : ∃ n tick, s.ticks.get? n = some tick ∧ planning.job = tick.job ∧ planning.now = tick.now
  rows : planning.rows = s.rows
  plans : plansForTick planning.job planning.scope planning.now
    (latestPlan planning.rows planning.job.name planning.scope) = .ok planning.plans

theorem plan_planning {s : State} {tick : Tick} {scope : Scope} {scopes : List Scope}
    (hn : s.ticks.get? n = some tick)
    (h : (s.plan n tick scope scopes).1.planning? = some planning) : Reads s planning := by
  unfold State.plan at h
  split at h
  · cases h
  · rename_i plans hplans
    have heq : planning = ⟨tick.job, scope, tick.now, s.rows, plans⟩ := (Option.some.inj h).symm
    rw [heq]
    exact ⟨⟨n, tick, hn, rfl, rfl⟩, rfl, hplans⟩

theorem insert_planning (s : State) (n : Nat) (tick : Tick) (scopes : List Scope) (scope : Scope)
    (planTime : Time) (plans : List Time) (id leaseToken : Uuid) (ok : Bool) :
    (s.insert n tick scopes scope planTime plans id leaseToken ok).1.planning? = none := by
  unfold State.insert
  dsimp only
  split <;> rfl

theorem steal_planning (s : State) (n : Nat) (tick : Tick) (scopes : List Scope) (scope : Scope)
    (planTime : Time) (plans : List Time) (leaseToken : Uuid) (ok : Bool) :
    (s.steal n tick scopes scope planTime plans leaseToken ok).1.planning? = none := by
  unfold State.steal
  dsimp only
  split
  · split <;> rfl
  · rfl

theorem stepTick_planning {s : State} {tick : Tick} (hn : s.ticks.get? n = some tick)
    (h : (s.stepTick n tick action).1.planning? = some planning) : Reads s planning := by
  unfold State.stepTick at h
  split at h
  · split at h
    · split at h
      · cases h
      · cases h
    · cases h
  · split at h
    · cases h
    · cases h
  · split at h
    · split at h
      · exact plan_planning hn h
      · cases h
    · cases h
  · split at h
    · rw [insert_planning] at h
      cases h
    · cases h
  · split at h
    · rw [steal_planning] at h
      cases h
    · cases h
  · split at h
    · cases h
    · cases h
  · split at h
    · cases h
    · cases h
  · cases h
  · cases h

theorem step_planning {s : State}
    (h : (step s action).1.planning? = some planning) : Reads s planning := by
  unfold step at h
  split at h
  · rename_i n hn
    cases htick : s.ticks.get? n with
    | none =>
      rw [htick] at h
      cases h
    | some tick =>
      rw [htick] at h
      exact stepTick_planning htick h
  · split at h
    · cases h
    · cases h
    · cases h

/-! ## What every run keeps of its plans -/

/-- The jobs of all runners are the same, one for each name. -/
def OneSpec (registry : List JobSpec) : Prop :=
  ∀ job ∈ registry, ∀ job' ∈ registry, job.name = job'.name → job = job'

/-- The rows of a job with the built-in planner were due when they were started. -/
def DueRows (registry : List JobSpec) (rows : Table) : Prop :=
  ∀ job ∈ registry, job.plansForScope = none → ∀ row ∈ rows, row.jobName = job.name →
    row.planTime ≤ latestDue job row.startedAt

structure DueTick (tick : Tick) : Prop where
  now : timestamptz tick.now = tick.now
  pending : tick.job.plansForScope = none → ∀ t ∈ tick.pc.pending, t ≤ latestDue tick.job tick.now

structure WellPlanned (registry : List JobSpec) (c : Run) : Prop where
  sound : Sound registry c.state
  rows : DueRows registry c.state.rows
  ticks : ∀ n tick, c.state.ticks.get? n = some tick → DueTick tick
  plannings : ∀ planning ∈ plannings c.past, Planned registry planning
  kept : ∀ planning ∈ SchedulerManager.plannings c.past, Kept planning.rows c.state.rows
  ordered : (SchedulerManager.plannings c.past).Pairwise fun p q => Kept p.rows q.rows

/-- A statement of a tick that is due. -/
theorem execute_dueRows (hone : OneSpec registry) {rows : Table} (h : DueRows registry rows)
    {tick : Tick} (hjob : tick.job ∈ registry) (hdue : DueTick tick) {statement : Statement}
    (hissues : Issues tick action statement) :
    DueRows registry (execute rows statement).2 := by
  intro job hmem hbuiltIn row hrow hname
  rcases mem_execute hrow with ⟨old, hold, hkey, _, hstarted, _⟩ |
    ⟨job', scope, planTime, dbTime, runnerId, id, leaseToken, hstatement, heq⟩ |
    ⟨job', scope, planTime, dbTime, runnerId, leaseToken, hstatement, old, hold, hclaimable, heq⟩
  · injection hkey with hjobName _ hplanTime
    rw [hplanTime, hstarted]
    apply h job hmem hbuiltIn old hold
    rw [← hjobName, hname]
  · rw [hstatement] at hissues
    obtain ⟨hjob', hnow, scopes, plans, hpc⟩ := hissues
    have hsame : job = tick.job := by
      apply hone job hmem tick.job hjob
      rw [← hname, heq, ← hjob']
      rfl
    rw [heq]
    show timestamptz planTime ≤ latestDue job (timestamptz dbTime)
    rw [hnow, hdue.now, hsame]
    refine le_trans (timestamptz_le planTime) (hdue.pending (by rw [← hsame, hbuiltIn]) planTime ?_)
    rw [hpc]
    exact mem_cons_self
  · rw [hstatement] at hissues
    obtain ⟨hjob', hnow, ⟨scopes, plans, hpc⟩, _⟩ := hissues
    have hkey := (status_of_claimable hclaimable).1
    injection hkey with hjobName _ hplanTime
    have hsame : job = tick.job := by
      apply hone job hmem tick.job hjob
      rw [← hname, heq, ← hjob', ← hjobName]
      rfl
    rw [heq]
    show old.planTime ≤ latestDue job (timestamptz dbTime)
    rw [hplanTime, hnow, hdue.now, hsame]
    refine le_trans (timestamptz_le planTime) (hdue.pending (by rw [← hsame, hbuiltIn]) planTime ?_)
    rw [hpc]
    exact mem_cons_self

theorem WellPlanned.start (registry : List JobSpec) :
    WellPlanned registry (start {} : Run) where
  sound := Sound.start registry
  rows := by
    intro job _ _ row hrow
    exact absurd hrow not_mem_nil
  ticks := by
    intro n tick htick
    cases htick
  plannings := by
    intro planning hplanning
    exact absurd hplanning not_mem_nil
  kept := by
    intro planning hplanning
    exact absurd hplanning not_mem_nil
  ordered := Pairwise.nil

theorem WellPlanned.stepTicks (hvalid : ∀ job ∈ registry, validate job = true)
    (h : WellPlanned registry c) (hallowed : allowed registry c action) :
    ∀ n tick, (step c.state action).2.ticks.get? n = some tick → DueTick tick := by
  intro m tick' hm
  rcases step_cases c.state action with hsame | ⟨now, _, hclock⟩ |
    ⟨n, job, now, runnerId, haction, hbegun⟩ | ⟨n, tick, _, hn, hturn⟩
  · rw [hsame] at hm
    exact h.ticks m tick' hm
  · rw [hclock] at hm
    exact h.ticks m tick' hm
  · rw [haction] at hallowed
    rw [hbegun, OrderedMap.get?_set] at hm
    split at hm
    · rw [← Option.some.inj hm]
      refine ⟨hallowed.2.2.2, ?_⟩
      intro _ t ht
      exact absurd ht not_mem_nil
    · exact h.ticks m tick' hm
  · rcases hturn.tick_of_get? hm with hold | ⟨hjob, hnow, hpending⟩
    · exact h.ticks m tick' hold
    · have hdue := h.ticks n tick hn
      refine ⟨by rw [hnow]; exact hdue.now, ?_⟩
      intro hbuiltIn t ht
      rw [hjob] at hbuiltIn
      rw [hjob, hnow]
      rcases hpending with hsub | ⟨scope, hplans⟩
      · exact hdue.pending hbuiltIn t (hsub ht)
      · have hjobValid := hvalid tick.job (h.sound.ticks n tick hn)
        simp only [validate, hbuiltIn, Option.isSome_none, Bool.false_or, Bool.and_eq_true,
          decide_eq_true_eq] at hjobValid
        exact plansForTick_le hbuiltIn hjobValid.1.1.1.1.1.1.2 hplans t ht

theorem WellPlanned.stepRows (hone : OneSpec registry) (h : WellPlanned registry c)
    (action : Action) :
    DueRows registry (step c.state action).2.rows := by
  rcases step_cases c.state action with hsame | ⟨now, _, hclock⟩ | ⟨n, job, now, runnerId, _, hbegun⟩ |
    ⟨n, tick, _, hn, hturn⟩
  · rw [hsame]
    exact h.rows
  · rw [hclock]
    exact h.rows
  · rw [hbegun]
    exact h.rows
  · rcases hturn.rows with hrows | ⟨statement, hissues, hrows⟩
    · rw [hrows]
      exact h.rows
    · rw [hrows]
      exact execute_dueRows hone h.rows (h.sound.ticks n tick hn) (h.ticks n tick hn) hissues

/-- A planning that has read the table of a run. -/
theorem WellPlanned.planned (h : WellPlanned registry c)
    (hreads : Reads c.state planning) : Planned registry planning := by
  obtain ⟨n, tick, hn, hjob, _⟩ := hreads.tick
  have hmem : planning.job ∈ registry := by
    rw [hjob]
    exact h.sound.ticks n tick hn
  refine ⟨hmem, ?_, hreads.plans, ?_⟩
  · rw [hreads.rows]
    exact h.sound.keys
  · intro hbuiltIn row hrow hname
    rw [hreads.rows] at hrow
    exact h.rows planning.job hmem hbuiltIn row hrow hname

theorem WellPlanned.step (hone : OneSpec registry) (hvalid : ∀ job ∈ registry, validate job = true)
    (h : WellPlanned registry c) (hallowed : allowed registry c action) :
    WellPlanned registry (advance SchedulerManager.step c action) := by
  have hkept : ∀ planning ∈ SchedulerManager.plannings c.past,
      Kept planning.rows (SchedulerManager.step c.state action).2.rows :=
    fun planning hmem => (h.kept planning hmem).trans (step_kept c.state action)
  have hsplit : SchedulerManager.plannings
      (c.past ++ [(action, (SchedulerManager.step c.state action).1)]) =
      SchedulerManager.plannings c.past ++ (SchedulerManager.step c.state action).1.planning?.toList := by
    unfold SchedulerManager.plannings
    rw [filterMap_append]
    cases hplanning : (SchedulerManager.step c.state action).1.planning? with
    | none | some planning => simp [hplanning]
  have hnew : ∀ planning ∈ (SchedulerManager.step c.state action).1.planning?.toList,
      Reads c.state planning := by
    intro planning hmem
    exact step_planning (Option.mem_toList.mp hmem)
  refine ⟨h.sound.step hallowed, h.stepRows hone action, h.stepTicks hvalid hallowed, ?_, ?_, ?_⟩
  · intro planning hmem
    rw [advance_past, hsplit] at hmem
    rcases mem_append.mp hmem with hold | hmine
    · exact h.plannings planning hold
    · exact h.planned (hnew planning hmine)
  · intro planning hmem
    rw [advance_past, hsplit] at hmem
    rcases mem_append.mp hmem with hold | hmine
    · exact hkept planning hold
    · show Kept planning.rows (SchedulerManager.step c.state action).2.rows
      rw [(hnew planning hmine).rows]
      exact step_kept c.state action
  · rw [advance_past, hsplit, pairwise_append]
    refine ⟨h.ordered, ?_, ?_⟩
    · cases (SchedulerManager.step c.state action).1.planning? with
      | none => exact List.Pairwise.nil
      | some planning => exact pairwise_singleton _ _
    · intro p hp q hq
      rw [(hnew q hq).rows]
      exact h.kept p hp

theorem WellPlanned.reach (hone : OneSpec registry) (hvalid : ∀ job ∈ registry, validate job = true)
    (h : Machine.Reach SchedulerManager.step (allowed registry) (Machine.start {}) c) :
    WellPlanned registry c :=
  Machine.Reach.invariant (I := WellPlanned registry)
    (fun _ _ hallowed hd => hd.step hone hvalid hallowed) h (WellPlanned.start registry)

/-! ## Due plans along a run -/

/-- A plan that is not the newest when it is due is not the newest later. -/
theorem Newest.of_kept {p q : Planning} (h : Kept p.rows q.rows)
    (hnewest : Newest q row) : Newest p row := by
  intro other hother hjob hscope
  obtain ⟨other', hother', hkey⟩ := h other hother
  injection hkey with hjob' hscope' hplanTime
  rw [← hplanTime]
  apply hnewest other' hother'
  · rw [hjob', hjob]
  · rw [hscope', hscope]

/-- The first planning that finds a plan due decides whether one returns it. -/
theorem WellPlanned.returned_iff (hvalid : ∀ job ∈ registry, validate job = true)
    (h : WellPlanned registry c) {before after : List Planning}
    (hsplit : SchedulerManager.plannings c.past = before ++ planning :: after)
    (hdue : Due planning row) (hfirst : ∀ p ∈ before, ¬Due p row) :
    (∃ p ∈ SchedulerManager.plannings c.past, Due p row ∧ row.planTime ∈ p.plans) ↔
      Newest planning row := by
  have hmem : planning ∈ SchedulerManager.plannings c.past := by
    rw [hsplit]
    exact mem_append_right _ mem_cons_self
  constructor
  · rintro ⟨p, hp, hpdue, hreturned⟩
    have hnewest : Newest p row := (planned_iff hvalid (h.plannings p hp) hpdue).mp hreturned
    rw [hsplit] at hp
    rcases mem_append.mp hp with hbefore | hrest
    · exact absurd hpdue (hfirst p hbefore)
    · rcases mem_cons.mp hrest with heq | hafter
      · rw [← heq]
        exact hnewest
      · have hordered := h.ordered
        rw [hsplit, pairwise_append, pairwise_cons] at hordered
        exact hnewest.of_kept (hordered.2.1.1 p hafter)
  · intro hnewest
    exact ⟨planning, hmem, hdue, (planned_iff hvalid (h.plannings planning hmem) hdue).mpr hnewest⟩

/-- In every run, a failed plan with attempts left is returned by a planning after
its retry time and within the window if and only if, at the first such planning,
no newer plan of its scope has a row. -/
theorem retry_planned_iff {registry : List JobSpec} (hone : OneSpec registry)
    (hvalid : ∀ job ∈ registry, validate job = true) {c : Run}
    (hc : Reach SchedulerManager.step (allowed registry) (start {}) c)
    {row : Execution} {before after : List Planning} {planning : Planning}
    (hsplit : plannings c.past = before ++ planning :: after) (hdue : Due planning row)
    (hfirst : ∀ p ∈ before, ¬Due p row) :
    (∃ p ∈ plannings c.past, Due p row ∧ row.planTime ∈ p.plans) ↔ Newest planning row :=
  (WellPlanned.reach hone hvalid hc).returned_iff hvalid hsplit hdue hfirst

/-! ## A plan that is overtaken -/

/-- A job of five minutes that replays every plan, ten minutes before a retry. -/
def bucketJob : JobSpec :=
  { nightlyJob with
    catchUpMode := .everyPlan
    maxPlansPerTick := 4
    retryBackoff := [600 * second] }

/-- A tick up to its planning. -/
def tickUpTo (n : Nat) (now : Time) : List Action :=
  [.begin n bucketJob now "runner", .scopes n (some [scopeGlobal]), .sweep n true, .plan n true]

/-- The handler of the first plan fails. -/
def bucketFails : List Action :=
  tickUpTo 1 0 ++ [Action.insert 1 1 11 true, .finish 1 (.failed .other []) 5 none true]

/-- The first plan fails and is planned again after its retry time. -/
def bucketRetried : List Action :=
  bucketFails ++ [Action.setClock (600 * second)] ++ tickUpTo 2 (600 * second)

/-- A tick before the retry time claims the next plan. -/
def bucketOvertaken : List Action :=
  bucketFails ++ [Action.setClock (300 * second)] ++ tickUpTo 2 (300 * second) ++
    [Action.insert 2 2 12 true, .finish 2 (.succeeded ⟨0, none⟩) 5 none true,
      .setClock (700 * second)] ++ tickUpTo 3 (700 * second)

def failedBucket : Execution :=
  failed 0 5 "handler_error" [] (some (600 * second))
    (freshExecution bucketJob scopeGlobal 0 0 "runner" 1 11)

def nextBucket : Execution :=
  succeeded (300 * second) 5 0 "\x7b\x7d"
    (freshExecution bucketJob scopeGlobal (300 * second) (300 * second) "runner" 2 12)

theorem bucketJob_valid : ∀ job ∈ [bucketJob], validate job = true := by
  intro job hjob
  rw [mem_singleton.mp hjob]
  decide +kernel

theorem bucketJob_one : OneSpec [bucketJob] := by
  intro job hjob job' hjob' _
  rw [mem_singleton.mp hjob, mem_singleton.mp hjob']

theorem bucketRetried_allowed :
    AllAllowed step (allowed [bucketJob]) (start {})
      bucketRetried := by
  refine ⟨⟨rfl, mem_singleton_self _, ?_, ?_⟩, trivial, trivial, trivial, trivial, trivial,
    ⟨?_, ?_⟩, ⟨rfl, mem_singleton_self _, ?_, ?_⟩, trivial, trivial, trivial, trivial⟩
  all_goals decide +kernel

theorem bucketOvertaken_allowed :
    AllAllowed step (allowed [bucketJob]) (start {})
      bucketOvertaken := by
  refine ⟨⟨rfl, mem_singleton_self _, ?_, ?_⟩, trivial, trivial, trivial, trivial, trivial,
    ⟨?_, ?_⟩, ⟨rfl, mem_singleton_self _, ?_, ?_⟩, trivial, trivial, trivial, trivial, trivial,
    ⟨?_, ?_⟩, ⟨rfl, mem_singleton_self _, ?_, ?_⟩, trivial, trivial, trivial, trivial⟩
  all_goals decide +kernel

theorem retry_planned_iff_retried :
    ∃ p ∈ plannings (exec step (start {}) bucketRetried).past,
      Due p failedBucket ∧ failedBucket.planTime ∈ p.plans := by
  have hsplit : plannings (exec step (start {}) bucketRetried).past =
      [⟨bucketJob, scopeGlobal, 0, [], [0]⟩] ++
        ⟨bucketJob, scopeGlobal, 600 * second, [failedBucket],
          [0, 300 * second, 600 * second]⟩ :: [] := rfl
  have hdue : Due ⟨bucketJob, scopeGlobal, 600 * second, [failedBucket],
      [0, 300 * second, 600 * second]⟩ failedBucket :=
    ⟨rfl, rfl, mem_singleton_self _, rfl, rfl, rfl, by decide, by decide, by decide, by decide⟩
  refine (retry_planned_iff bucketJob_one bucketJob_valid (reach_exec bucketRetried_allowed)
    hsplit hdue ?_).mpr ?_
  · intro p hp hpdue
    rw [mem_singleton.mp hp] at hpdue
    exact absurd hpdue.mem not_mem_nil
  · intro other hother _ _
    rw [mem_singleton.mp hother]

/-- The first plan has attempts left and is due, and no later planning returns it. -/
theorem overtaken_never_planned :
    ¬∀ (registry : List JobSpec) (c : Run) (planning : Planning) (row : Execution),
      OneSpec registry → (∀ job ∈ registry, validate job = true) →
      Reach SchedulerManager.step (allowed registry) (start {}) c →
      planning ∈ plannings c.past → Due planning row →
      ∃ c', Reach SchedulerManager.step (allowed registry) c c' ∧
        ∃ p ∈ plannings c'.past, Due p row ∧ row.planTime ∈ p.plans := by
  intro h
  have hreach := reach_exec bucketOvertaken_allowed
  have hpast : plannings (exec SchedulerManager.step (start {})
      bucketOvertaken).past =
      [⟨bucketJob, scopeGlobal, 0, [], [0]⟩,
        ⟨bucketJob, scopeGlobal, 300 * second, [failedBucket], [300 * second]⟩,
        ⟨bucketJob, scopeGlobal, 700 * second, [failedBucket, nextBucket], [600 * second]⟩] := rfl
  have hdue : Due ⟨bucketJob, scopeGlobal, 700 * second, [failedBucket, nextBucket],
      [600 * second]⟩ failedBucket :=
    ⟨rfl, rfl, mem_cons_self, rfl, rfl, rfl, by decide, by decide, by decide, by decide⟩
  obtain ⟨c', hc', hreturned⟩ := h [bucketJob] _ _ failedBucket bucketJob_one bucketJob_valid hreach
    (by rw [hpast]; exact List.mem_cons_of_mem _ (List.mem_cons_of_mem _ mem_cons_self)) hdue
  obtain ⟨rest, hrest⟩ := hc'.past_prefix
  have hsplit : plannings c'.past =
      [⟨bucketJob, scopeGlobal, 0, [], [0]⟩,
        ⟨bucketJob, scopeGlobal, 300 * second, [failedBucket], [300 * second]⟩] ++
      ⟨bucketJob, scopeGlobal, 700 * second, [failedBucket, nextBucket], [600 * second]⟩ ::
        plannings rest := by
    rw [← hrest]
    unfold plannings
    rw [List.filterMap_append]
    exact congrArg (· ++ rest.filterMap fun e => e.2.planning?) hpast
  have hnewest := ((WellPlanned.reach bucketJob_one bucketJob_valid (hreach.trans hc')).returned_iff
    bucketJob_valid hsplit hdue (by
      intro p hp hpdue
      rcases mem_cons.mp hp with heq | hsecond
      · rw [heq] at hpdue
        exact absurd hpdue.mem not_mem_nil
      · rw [mem_singleton.mp hsecond] at hpdue
        exact absurd hpdue.retry (by decide))).mp hreturned
  have hnewer := hnewest nextBucket (List.mem_cons_of_mem _ mem_cons_self) rfl rfl
  cases hnewer

/-! ## Plans and their time -/

/-- However many runners tick, no plan of a built-in planner is claimed before its delay is over;
a plan that is claimed has one row, and keeps it. -/
theorem claimed_when_due {registry : List JobSpec} (hone : OneSpec registry)
    (hvalid : ∀ job ∈ registry, validate job = true) {c c' : Run}
    (hc : Machine.Reach SchedulerManager.step (allowed registry) (Machine.start {}) c)
    (hlater : Machine.Reach SchedulerManager.step (allowed registry) c c') :
    (∀ job ∈ registry, job.plansForScope = none → ∀ row ∈ c.state.rows, row.jobName = job.name →
        row.planTime + job.scheduleDelay ≤ row.startedAt) ∧
      ∀ row ∈ c.state.rows, ∃! row', row' ∈ c'.state.rows ∧ row'.key = row.key := by
  have hplanned := WellPlanned.reach hone hvalid hc
  have hkeys := (WellPlanned.reach hone hvalid (hc.trans hlater)).sound.keys
  have hkept : Kept c.state.rows c'.state.rows := by
    apply hlater.invariant (I := fun d => Kept c.state.rows d.state.rows)
    · exact fun d action _ hd => hd.trans (step_kept d.state action)
    · exact Kept.refl _
  constructor
  · intro job hjob hbuiltIn row hrow hname
    have hdue := hplanned.rows job hjob hbuiltIn row hrow hname
    have hfloor := floorPlan_le (row.startedAt - job.scheduleDelay) job.cadence
    exact Int.add_le_of_le_sub_right (le_trans hdue hfloor)
  · intro row hrow
    obtain ⟨row', hrow', hkey⟩ := hkept row hrow
    refine ⟨row', ⟨hrow', hkey⟩, ?_⟩
    intro other hother
    exact hkeys.eq_of_key hother.1 hrow' (hother.2.trans hkey.symm)

/-- The failed plan was due, and while the second tick waits at its claim it has its row. -/
theorem claimed_when_due_retried :
    let c := exec step (start {}) bucketRetried
    c.state.rows = [failedBucket] ∧
      failedBucket.planTime + bucketJob.scheduleDelay ≤ failedBucket.startedAt ∧
      ∃! row, row ∈ (advance step c (.insert 2 2 12 true)).state.rows ∧
        row.key = failedBucket.key := by
  obtain ⟨hdue, hone⟩ := claimed_when_due bucketJob_one bucketJob_valid
    (reach_exec bucketRetried_allowed)
    ((Reach.refl _).tail (Action.insert 2 2 12 true) trivial)
  exact ⟨rfl, hdue bucketJob (mem_singleton_self _) rfl failedBucket (mem_singleton_self _) rfl,
    hone failedBucket (mem_singleton_self _)⟩

end ClawMessenger.Ports.SchedulerManager
