import ClawMessenger.Verified.Recurrence
import ClawMessenger.Ports.SchedulerManager

/-!
# The planner of scheduled autopilots

Every enabled schedule trigger is a scope of one job of the scheduler.  Its
planner returns the most recent occurrence of the trigger's cron expression
after an anchor, unless that occurrence is late; a plan that is due for its
retry is returned as it is.

The occurrences come from `NextOccurrencesUTC`, which asks the cron library for
one activation after the other and gives up after 1024 of them.  The planner
wants the last one, so what it returns depends on how many there are
(`punctual_iff`).

The cron library is a parameter.  Of a schedule in a location it is known that
`Next` is the first activation after its argument, or the zero time.
-/

namespace ClawMessenger.Ports.AutopilotPlanner

open Verified SchedulerStore SchedulerManager

/-! ## Cron schedules -/

structure Cron where
  Schedule : Type
  Location : Type
  parse : String → Except String Schedule
  loadLocation : String → Except String Location
  activations : Schedule → Location → Recurrence Time
  zero : ∀ sched loc, (activations sched loc).origin = 0

inductive CronError where
  | missingSchedule (cronExpr : String)
  | parse (error : String)
  | invalidTimezone (timezone error : String)
deriving DecidableEq, Repr

def hasPrefix (s start : String) : Bool := start.toList.isPrefixOf s.toList

def parseCronSchedule (cron : Cron) (cronExpr timezone : String) :
    Except CronError (Recurrence Time) :=
  if (hasPrefix cronExpr "TZ=" || hasPrefix cronExpr "CRON_TZ=") && !cronExpr.toList.contains ' ' then
    .error (.missingSchedule cronExpr)
  else
    match cron.parse cronExpr with
    | .error error => .error (.parse error)
    | .ok sched =>
      match cron.loadLocation timezone with
      | .error error => .error (.invalidTimezone timezone error)
      | .ok loc => .ok (cron.activations sched loc)

def hardCap : Nat := 1024

/-- `NextOccurrencesUTC`. -/
def nextOccurrencesUTC (cron : Cron) (cronExpr timezone : String) (after bound : Time) :
    Except CronError (List Time) :=
  match parseCronSchedule cron cronExpr timezone with
  | .error error => .error error
  | .ok sched => .ok (Recurrence.upTo sched.next bound hardCap after)

/-! ## Triggers -/

structure TriggerConfig where
  triggerId : String
  cronExpression : String
  timezone : String
  createdAt : Time
  /-- The zero time when it has never fired. -/
  lastFiredAt : Time

abbrev ScheduleCache := OrderedMap String TriggerConfig

def scopeKindAutopilotTrigger : String := "autopilot_trigger"

/-! ## Planning -/

def maxAutopilotScheduleLateness : Duration := 5 * 60 * second

def replayWindow : Duration := 24 * 3600 * second

/-- The occurrence after which the planner resumes. -/
def anchor (cfg : TriggerConfig) (latest : LatestPlanInfo) : Time :=
  if latest.found then latest.planTime
  else if cfg.lastFiredAt ≠ 0 then cfg.lastFiredAt
  else cfg.createdAt

def resumeAfter (cfg : TriggerConfig) (latest : LatestPlanInfo) (now : Time) : Time :=
  let after := anchor cfg latest
  let oldest := now - replayWindow
  if after < oldest then oldest else after

def isAutopilotSchedulePlanStale (now planTime : Time) : Bool :=
  decide (maxAutopilotScheduleLateness < now - planTime)

structure PlansError where
  triggerId : String
  error : CronError
deriving DecidableEq, Repr

def autopilotPlansForScope (cron : Cron) (cache : ScheduleCache) (scope : Scope) (now : Time)
    (latest : LatestPlanInfo) : Except PlansError (List Time) :=
  match cache.get? scope.id with
  | none => .ok []
  | some cfg =>
    if latest.retryEligible now then .ok [latest.planTime]
    else
      match nextOccurrencesUTC cron cfg.cronExpression cfg.timezone (resumeAfter cfg latest now)
          now with
      | .error error => .error ⟨scope.id, error⟩
      | .ok occs =>
        match occs.getLast? with
        | none => .ok []
        | some latestDue =>
          if isAutopilotSchedulePlanStale now latestDue then .ok [] else .ok [latestDue]

/-! ## What a planning returns -/

variable {latest : LatestPlanInfo} {sched : Recurrence Time}

/-- A planning that is not a retry, in terms of the occurrences of the trigger. -/
theorem autopilotPlansForScope_of_parsed {cron : Cron} {cache : ScheduleCache} {scope : Scope}
    {now : Time} {cfg : TriggerConfig} (hcached : cache.get? scope.id = some cfg)
    (hparsed : parseCronSchedule cron cfg.cronExpression cfg.timezone = .ok sched)
    (hretry : latest.retryEligible now = false) :
    autopilotPlansForScope cron cache scope now latest =
      .ok (((Recurrence.upTo sched.next now hardCap (resumeAfter cfg latest now)).getLast?.filter
        fun due => !isAutopilotSchedulePlanStale now due).toList) := by
  unfold autopilotPlansForScope nextOccurrencesUTC
  simp only [hcached, hparsed, hretry, Bool.false_eq_true, if_false]
  cases (Recurrence.upTo sched.next now hardCap (resumeAfter cfg latest now)).getLast? with
  | none => rfl
  | some due =>
    cases hstale : isAutopilotSchedulePlanStale now due with
    | false | true => simp [Option.filter, hstale]

/-! ## Punctual planning -/

/-- The latest row is a failure that is still to be retried, now or later. -/
def awaitsRetry (latest : LatestPlanInfo) : Prop :=
  latest.found = true ∧ latest.status = .failed ∧ latest.attempt < latest.maxAttempts

/-- The occurrences after `after` that are not late at `now`. -/
def fresh (sched : Recurrence Time) (after now : Time) : Set Time :=
  sched.between (max after (now - maxAutopilotScheduleLateness)) now

/-- One plan at most; the latest of the fresh occurrences, unless a retry is
awaited; and nothing older than the replay window. -/
structure Punctual (sched : Recurrence Time) (after now : Time) (latest : LatestPlanInfo)
    (plans : List Time) : Prop where
  single : plans.length ≤ 1
  fires : ¬awaitsRetry latest → (fresh sched after now).Nonempty →
    ∃ due, IsGreatest (fresh sched after now) due ∧ plans = [due]
  recent : ∀ plan ∈ plans, now - replayWindow ≤ plan

/-- The enumeration from `start` to `now` ends with its last occurrence `due`: the
occurrences fit into it, and it stops after them; where no activation follows, it
has to come to `due` again after starting over at the zero time. -/
def EndsWith (sched : Recurrence Time) (start now due : Time) : Prop :=
  (sched.between start now).ncard ≤ hardCap ∧
    (sched.Stops now ∨
      (sched.between 0 now).ncard + 1 ∣ hardCap - (sched.between start now).ncard ∧
        (0 ≤ due ∨ hardCap = (sched.between start now).ncard))

theorem retryEligible_awaitsRetry {now : Time} (h : latest.retryEligible now = true) :
    awaitsRetry latest := by
  unfold LatestPlanInfo.retryEligible at h
  split at h
  · cases h
  · rename_i hfound
    split at h
    · cases h
    · rename_i hfailed
      split at h
      · cases h
      · rename_i hattempts
        exact ⟨by simpa using hfound, not_not.mp hfailed, not_le.mp hattempts⟩

theorem lateness_le_replayWindow (now : Time) :
    now - replayWindow ≤ now - maxAutopilotScheduleLateness := by
  apply sub_le_sub_left
  decide

theorem resumeAfter_eq_max (cfg : TriggerConfig) (latest : LatestPlanInfo) (now : Time) :
    resumeAfter cfg latest now = max (anchor cfg latest) (now - replayWindow) := by
  show (if anchor cfg latest < now - replayWindow then now - replayWindow else anchor cfg latest) = _
  split
  · rename_i hbefore
    exact (max_eq_right hbefore.le).symm
  · rename_i hafter
    exact (max_eq_left (not_lt.mp hafter)).symm

theorem not_stale_iff {now plan : Time} :
    (!isAutopilotSchedulePlanStale now plan) = true ↔ now - maxAutopilotScheduleLateness ≤ plan := by
  unfold isAutopilotSchedulePlanStale
  rw [Bool.not_eq_true', decide_eq_false_iff_not, not_lt, sub_le_comm]

/-- The latest fresh occurrence is the latest one there is. -/
theorem isGreatest_between_of_fresh {after now due : Time}
    (h : IsGreatest (fresh sched after now) due) :
    IsGreatest (sched.between (max after (now - replayWindow)) now) due := by
  obtain ⟨⟨hactive, hafter, hnow⟩, hupper⟩ := h
  rw [max_lt_iff] at hafter
  constructor
  · refine ⟨hactive, max_lt hafter.1 ?_, hnow⟩
    exact lt_of_le_of_lt (lateness_le_replayWindow now) hafter.2
  · intro other hother
    by_cases hlate : other ≤ now - maxAutopilotScheduleLateness
    · exact le_trans hlate hafter.2.le
    · apply hupper
      exact ⟨hother.1, max_lt (lt_of_le_of_lt (le_max_left _ _) hother.2.1) (not_le.mp hlate),
        hother.2.2⟩

theorem getLast?_upTo_iff_endsWith (hzero : sched.origin = 0) {start now due : Time}
    (h : IsGreatest (sched.between start now) due) :
    (Recurrence.upTo sched.next now hardCap start).getLast? = some due ↔
      EndsWith sched start now due := by
  by_cases hstop : sched.Stops now
  · rw [sched.getLast?_upTo_iff hstop h]
    constructor
    · intro hcount
      exact ⟨hcount, .inl hstop⟩
    · intro hends
      exact hends.1
  · rw [sched.getLast?_upTo_restart_iff hstop h, hzero]
    constructor
    · rintro ⟨hcount, hround⟩
      exact ⟨hcount, .inr hround⟩
    · rintro ⟨hcount, hstops | hround⟩
      · exact absurd hstops hstop
      · exact ⟨hcount, hround⟩

theorem origin_of_parsed {cron : Cron} {cronExpr timezone : String}
    (h : parseCronSchedule cron cronExpr timezone = .ok sched) : sched.origin = 0 := by
  unfold parseCronSchedule at h
  repeat' split at h
  all_goals cases h
  exact cron.zero _ _

/-- A planning of a trigger whose cron expression is valid is punctual if and only
if a plan that is due for its retry is inside the replay window, and, when no retry
is awaited and there is a fresh occurrence, the enumeration ends with it. -/
theorem punctual_iff {cron : Cron} {cache : ScheduleCache} {scope : Scope} {now : Time}
    {latest : LatestPlanInfo} {cfg : TriggerConfig} {sched : Recurrence Time}
    (hcached : cache.get? scope.id = some cfg)
    (hparsed : parseCronSchedule cron cfg.cronExpression cfg.timezone = .ok sched) :
    ∃ plans, autopilotPlansForScope cron cache scope now latest = .ok plans ∧
      (Punctual sched (anchor cfg latest) now latest plans ↔
        (latest.retryEligible now = true → now - replayWindow ≤ latest.planTime) ∧
        (¬awaitsRetry latest → ∀ due, IsGreatest (fresh sched (anchor cfg latest) now) due →
          EndsWith sched (max (anchor cfg latest) (now - replayWindow)) now due)) := by
  cases hretry : latest.retryEligible now with
  | true =>
    refine ⟨[latest.planTime], ?_, ?_⟩
    · unfold autopilotPlansForScope
      simp [hcached, hretry]
    · have hawaits := retryEligible_awaitsRetry hretry
      constructor
      · intro hpunctual
        exact ⟨fun _ => hpunctual.recent _ (List.mem_singleton_self _),
          fun hnone => absurd hawaits hnone⟩
      · intro hwindow
        refine ⟨le_rfl, fun hnone => absurd hawaits hnone, ?_⟩
        intro plan hplan
        rw [List.mem_singleton.mp hplan]
        exact hwindow.1 rfl
  | false =>
    refine ⟨_, autopilotPlansForScope_of_parsed hcached hparsed hretry, ?_⟩
    rw [resumeAfter_eq_max]
    generalize hlast : (Recurrence.upTo sched.next now hardCap
      (max (anchor cfg latest) (now - replayWindow))).getLast? = last
    have hends : ∀ due, IsGreatest (fresh sched (anchor cfg latest) now) due →
        (last = some due ↔ EndsWith sched (max (anchor cfg latest) (now - replayWindow)) now due) := by
      intro due hdue
      rw [← hlast]
      exact getLast?_upTo_iff_endsWith (origin_of_parsed hparsed) (isGreatest_between_of_fresh hdue)
    constructor
    · intro hpunctual
      refine ⟨fun h => absurd h Bool.false_ne_true, ?_⟩
      intro hnone due hdue
      rw [← hends due hdue]
      obtain ⟨due', hdue', hplans⟩ := hpunctual.fires hnone ⟨due, hdue.1⟩
      rw [hdue.unique hdue']
      have hmem : due' ∈ (last.filter fun due => !isAutopilotSchedulePlanStale now due).toList := by
        rw [hplans]
        exact List.mem_singleton_self _
      exact (Option.filter_eq_some_iff.mp (Option.mem_toList.mp hmem)).1
    · intro hcondition
      refine ⟨Option.length_toList_le, ?_, ?_⟩
      · intro hnone hsome
        obtain ⟨due, hdue⟩ := sched.exists_isGreatest hsome
        refine ⟨due, hdue, ?_⟩
        have hfresh : (!isAutopilotSchedulePlanStale now due) = true :=
          not_stale_iff.mpr (le_of_lt (max_lt_iff.mp hdue.1.2.1).2)
        rw [(hends due hdue).mpr (hcondition.2 hnone due hdue)]
        simp [Option.filter, hfresh]
      · intro plan hplan
        have hfresh := (Option.filter_eq_some_iff.mp (Option.mem_toList.mp hplan)).2
        exact le_trans (lateness_le_replayWindow now) (not_stale_iff.mp hfresh)

/-! ## A cron that is due every minute -/

def minute : Duration := 60 * second

theorem minute_pos : 0 < minute := by decide

def everyMinute : Recurrence Time where
  active := {t | minute ∣ t}
  origin := 0
  next t := (t / minute + 1) * minute
  least := by
    intro t a ha hlt
    obtain ⟨k, rfl⟩ := ha
    have hdiv := Int.lt_ediv_add_one_mul_self t minute_pos
    refine ⟨⟨dvd_mul_left _ _, hdiv⟩, ?_⟩
    rintro b ⟨⟨j, rfl⟩, hb⟩
    rw [mul_comm minute j]
    apply mul_le_mul_of_nonneg_right _ minute_pos.le
    apply Int.add_one_le_of_lt
    apply Int.ediv_lt_of_lt_mul minute_pos
    rwa [mul_comm]
  none := by
    intro t h
    have hnext := h ((t / minute + 1) * minute) (dvd_mul_left _ _)
    exact absurd (Int.lt_ediv_add_one_mul_self t minute_pos) (not_lt.mpr hnext)

/-- What the library answers for `* * * * *` in UTC. -/
def everyMinuteCron : Cron where
  Schedule := Unit
  Location := Unit
  parse _ := .ok ()
  loadLocation _ := .ok ()
  activations _ _ := everyMinute
  zero _ _ := rfl

def everyMinuteTrigger : TriggerConfig where
  triggerId := "t"
  cronExpression := "* * * * *"
  timezone := "UTC"
  createdAt := 63900000000 * second
  lastFiredAt := 0

def everyMinuteCache : ScheduleCache :=
  (∅ : ScheduleCache).set everyMinuteTrigger.triggerId everyMinuteTrigger

def everyMinuteScope : Scope := ⟨scopeKindAutopilotTrigger, everyMinuteTrigger.triggerId⟩

/-- A minute and a half after the trigger was made. -/
theorem punctual_iff_everyMinute :
    ∃ plans, autopilotPlansForScope everyMinuteCron everyMinuteCache everyMinuteScope
        (63900000090 * second) {} = .ok plans ∧
      (Punctual everyMinute (63900000000 * second) (63900000090 * second) {} plans ↔
        (LatestPlanInfo.retryEligible {} (63900000090 * second) = true →
          63900000090 * second - replayWindow ≤ 0) ∧
        (¬awaitsRetry {} → ∀ due,
          IsGreatest (fresh everyMinute (63900000000 * second) (63900000090 * second)) due →
          EndsWith everyMinute
            (max (63900000000 * second) (63900000090 * second - replayWindow))
            (63900000090 * second) due)) := by
  have hcached : everyMinuteCache.get? everyMinuteScope.id = some everyMinuteTrigger := rfl
  have hparsed : parseCronSchedule everyMinuteCron everyMinuteTrigger.cronExpression
      everyMinuteTrigger.timezone = .ok everyMinute := rfl
  exact punctual_iff hcached hparsed

/-- Two days later, with a fresh occurrence at `now` itself and no plan in the table,
the enumeration of the last day is given up seven hours before its end. -/
theorem everyMinute_not_fired :
    autopilotPlansForScope everyMinuteCron everyMinuteCache everyMinuteScope
        (63900172800 * second) {} = .ok [] ∧
      63900172800 * second ∈ fresh everyMinute (63900000000 * second) (63900172800 * second) ∧
      ¬Punctual everyMinute (63900000000 * second) (63900172800 * second) {} [] := by
  have hfresh : 63900172800 * second ∈
      fresh everyMinute (63900000000 * second) (63900172800 * second) := by
    refine ⟨⟨1065002880, by decide⟩, ?_, le_rfl⟩
    decide
  refine ⟨by decide +kernel, hfresh, ?_⟩
  intro hpunctual
  have hnone : ¬awaitsRetry {} := by
    rintro ⟨hfound, _⟩
    cases hfound
  obtain ⟨due, _, hplans⟩ := hpunctual.fires hnone ⟨_, hfresh⟩
  cases hplans

end ClawMessenger.Ports.AutopilotPlanner
