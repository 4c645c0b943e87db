import ClawMessenger.Ports.AutopilotQuotaRuns

/-!
# Every interleaving keeps the quota accounted

A statement runs when no open admission has the period of a reservation that it
would finalize, and an admission opens when no other has its period.  `Effect`
says once what a step does to the committed tables and to the open admissions;
the invariants and `quota_accounted` follow from it.
-/

namespace ClawMessenger.Ports.AutopilotQuota

open ClawMessenger.Verified Machine
open Function (update update_apply)
open State (proceed start step)

variable {s : State} {event : Event} {n : Nat} {a : Admission} {p : PeriodId} {limit : Int}

/-! ## The order of steps -/

def State.lockedPeriod (s : State) (p : PeriodId) : Prop :=
  ∃ n a, s.admissions n = some a ∧ a.period = p

/-- The statement needs a period row that an open admission has locked. -/
def State.waits (s : State) (st : Statement) : Prop :=
  ∃ r ∈ s.db.reservations, s.db.changes st r = true ∧ s.lockedPeriod r.period

def Allowed (c : Config State Event Unit) : Event → Prop
  | .exec st => ¬ c.state.waits st ∧ Fresh c.state.db st
  | .admission n request => c.state.admissions n = none ∧
      match quotaPolicy request.gate with
      | none => Fresh c.state.db (.createRun request.run)
      | some policy => ¬ c.state.lockedPeriod (request.period policy)
  | .proceed _ => True
  | .commit _ reservationId runId _ => (∀ r ∈ c.state.db.reservations, r.id ≠ reservationId) ∧
      ∀ run ∈ c.state.db.runs, run.id ≠ runId
  | .abort _ => True
  | .reconcile n _ _ _ => c.state.passes n = none
  | .pass n => ∀ todo st, c.state.passes n = some ⟨todo, some st⟩ → ¬ c.state.waits st

/-- What a pass runs settles a reservation or recovers a run. -/
def Statement.Repairs : Statement → Prop
  | .consume _ | .release _ | .recoverPartial _ => True
  | _ => False

variable {st : Statement}

theorem reconcileOne_repairs {r : Reservation} {run : Option Run}
    (h : reconcileOne r run = some st) : st.Repairs := by
  cases run with
  | none =>
    cases h
    trivial
  | some run =>
    simp only [reconcileOne] at h
    split at h
    · cases h
      trivial
    · split at h
      · cases h
        trivial
      · split at h
        · cases h
          trivial
        · cases h

theorem Statement.Repairs.fresh (h : st.Repairs) (db : Db) : Fresh db st := by
  cases st with
  | createRun run => exact h.elim
  | _ => trivial

structure Sound (s : State) : Prop where
  books : Books s.db
  alone : ∀ n a m b, s.admissions n = some a → s.admissions m = some b → a.period = b.period → n = m
  copies : ∀ n a, s.admissions n = some a → Holds s.db a
  repairs : ∀ n todo st, s.passes n = some ⟨todo, some st⟩ → st.Repairs

/-! ## What a step does -/

/-- The tables and the open admissions after a step. -/
inductive Effect (s : State) (event : Event) : Db → (Nat → Option Admission) → Prop
  | stays : Effect s event s.db s.admissions
  | ran (st : Statement) (hfree : ¬ s.waits st) (hfresh : Fresh s.db st) :
      Effect s event (s.db.exec st) s.admissions
  | opened (n : Nat) (request : Request) (policy : Policy)
      (hevent : event = .admission n request) (hgate : quotaPolicy request.gate = some policy)
      (hfree : ¬ s.lockedPeriod (request.period policy)) :
      Effect s event s.db (update s.admissions n (some (request.open policy s.db)))
  | moved (n : Nat) (a a' : Admission) (ha : s.admissions n = some a) (hpolicy : a'.policy = a.policy)
      (hperiod : a'.period = a.period) (hholds : Holds s.db a') :
      Effect s event s.db (update s.admissions n (some a'))
  | closed (n : Nat) : Effect s event s.db (update s.admissions n none)
  | reused (n : Nat) (a : Admission) (ha : s.admissions n = some a) :
      Effect s event (s.db.ensure a.period) (update s.admissions n none)
  | committed (n : Nat) (a : Admission) (released : Option Nat) (reservationId runId now : Nat)
      (ha : s.admissions n = some a) (hphase : a.phase = .deciding released)
      (hreservation : ∀ r ∈ s.db.reservations, r.id ≠ reservationId)
      (hrun : ∀ run ∈ s.db.runs, run.id ≠ runId) :
      Effect s event (a.commit s.db released reservationId runId now) (update s.admissions n none)

theorem proceed_effect (h : Sound s) (ha : s.admissions n = some a) :
    Effect s event (s.proceed n a).db (s.proceed n a).admissions := by
  have hholds := h.copies n a ha
  cases hphase : a.phase with
  | locked =>
    have hreserved := hholds.reserved
    rw [hphase] at hreserved
    simp only [proceed, hphase]
    cases hkey : s.db.byKey a.period a.idempotencyKey with
    | none => exact .moved n a _ ha rfl rfl ⟨hholds.used, hreserved, trivial, hholds.limit⟩
    | some existing =>
      have hmem := List.mem_of_find?_eq_some hkey
      have hfound := List.find?_some hkey
      simp only [Bool.and_eq_true, decide_eq_true_iff] at hfound
      exact .moved n a _ ha rfl rfl
        ⟨hholds.used, hreserved, ⟨hmem, hfound.1.1⟩, hholds.limit⟩
  | found existing =>
    have hreserved := hholds.reserved
    have hreleases := hholds.releases
    rw [hphase] at hreserved hreleases
    simp only [proceed, hphase]
    cases hrun : s.db.runOf existing.id with
    | some run => exact .reused n a ha
    | none =>
      dsimp only
      split
      · rename_i hstate
        exact .moved n a _ ha rfl rfl
          ⟨hholds.used, hreserved, ⟨hreleases.1, hreleases.2, hstate⟩, hholds.limit⟩
      · exact .closed n
  | orphan existing =>
    have hreserved := hholds.reserved
    have hreleases := hholds.releases
    rw [hphase] at hreserved hreleases
    simp only [proceed, hphase]
    refine .moved n a _ ha rfl rfl ⟨hholds.used, ?_, ?_, hholds.limit⟩
    · show a.reservedCount - 1 = (s.db.counters a.period).2 - 1
      rw [hreserved]
      exact congrArg (· - 1) (Int.sub_zero _)
    · exact ⟨existing, hreleases.1, rfl, hreleases.2⟩
  | deciding released =>
    simp only [proceed, hphase]
    exact .stays

variable {c : Config State Event Unit} {admissions : Nat → Option Admission} {db : Db}

theorem step_effect (hallowed : Allowed c event) (h : Sound c.state) :
    Effect c.state event (c.state.step event).2.db (c.state.step event).2.admissions := by
  cases event with
  | exec st => exact .ran st hallowed.1 hallowed.2
  | admission n request =>
    simp only [step]
    split
    · have hfree := hallowed.2
      cases hgate : quotaPolicy request.gate with
      | none =>
        rw [hgate] at hfree
        refine .ran (.createRun request.run) ?_ hfree
        rintro ⟨r, -, hchanges, -⟩
        simp [Db.changes, Statement.selects, Statement.updates] at hchanges
      | some policy =>
        rw [hgate] at hfree
        exact .opened n request policy rfl hgate hfree
    · exact .stays
  | proceed n =>
    simp only [step]
    cases ha : c.state.admissions n with
    | none => exact .stays
    | some a => exact proceed_effect h ha
  | commit n reservationId runId now =>
    simp only [step]
    cases ha : c.state.admissions n with
    | none => exact .stays
    | some a =>
      cases hphase : a.phase with
      | deciding released =>
        simp only [hphase]
        exact .committed n a released reservationId runId now ha hphase hallowed.1 hallowed.2
      | _ =>
        simp only [hphase]
        exact .stays
  | abort n => exact .closed n
  | reconcile n terminalBefore partialBefore limit => exact .stays
  | pass n =>
    simp only [step]
    cases hpass : c.state.passes n with
    | none => exact .stays
    | some pass =>
      obtain ⟨todo, next⟩ := pass
      cases next with
      | some st => exact .ran st (hallowed todo st hpass) ((h.repairs n todo st hpass).fresh _)
      | none =>
        cases todo with
        | nil | cons r todo => exact .stays

/-! ## The invariant -/

theorem open_holds {request : Request} {policy : Policy} (hgate : quotaPolicy request.gate = some policy)
    (db : Db) : Holds db (request.open policy db) := by
  have hlimit : 0 ≤ policy.limit := by
    unfold quotaPolicy at hgate
    split at hgate
    · split at hgate
      · rename_i hvalid
        cases hgate
        exact hvalid.2.1
      · cases hgate
    · cases hgate
  have hcounters : db.counters (request.period policy) =
      ((request.open policy db).usedCount, (request.open policy db).reservedCount) := by
    unfold Db.counters Request.open
    cases db.periods (request.period policy) with
    | none | some row => rfl
  refine ⟨?_, ?_, trivial, hlimit⟩
  · exact (congrArg Prod.fst hcounters).symm
  · exact ((congrArg Prod.snd hcounters).symm).trans (Int.sub_zero _).symm

/-- The books and the copies of the open admissions, after a step. -/
theorem Effect.sound (he : Effect s event db admissions) (h : Sound s) :
    Books db ∧ (∀ n a m b, admissions n = some a → admissions m = some b → a.period = b.period → n = m) ∧
      ∀ n a, admissions n = some a → Holds db a := by
  -- closing an admission keeps what holds for the others
  have hclosed : ∀ n m a, update s.admissions n none m = some a →
      m ≠ n ∧ s.admissions m = some a := by
    intro n m a hm
    rw [update_apply] at hm
    split at hm
    · cases hm
    · rename_i hne
      exact ⟨hne, hm⟩
  have halone : ∀ n, ∀ m a k b, update s.admissions n none m = some a →
      update s.admissions n none k = some b → a.period = b.period → m = k :=
    fun n m a k b hm hk => h.alone m a k b (hclosed n m a hm).2 (hclosed n k b hk).2
  have hother : ∀ {n a}, s.admissions n = some a → ∀ {m b},
      update s.admissions n none m = some b → s.admissions m = some b ∧ b.period ≠ a.period := by
    intro n a ha m b hm
    obtain ⟨hne, hb⟩ := hclosed n m b hm
    exact ⟨hb, fun hperiod => hne (h.alone m b n a hb ha hperiod)⟩
  cases he with
  | stays => exact ⟨h.books, h.alone, h.copies⟩
  | ran st hfree hfresh =>
    refine ⟨h.books.exec hfresh, h.alone, ?_⟩
    intro n a ha
    refine (h.copies n a ha).untouched (.exec ?_)
    intro r hr hchanges hperiod
    exact hfree ⟨r, hr, hchanges, n, a, ha, hperiod.symm⟩
  | opened n request policy hevent hgate hfree =>
    refine ⟨h.books, ?_, ?_⟩
    · intro m a k b hm hk hperiod
      rw [update_apply] at hm hk
      split at hm
      · rename_i hmn
        split at hk
        · rename_i hkn
          rw [hmn, hkn]
        · cases hm
          exact absurd ⟨k, b, hk, hperiod.symm⟩ hfree
      · split at hk
        · cases hk
          exact absurd ⟨m, a, hm, hperiod⟩ hfree
        · exact h.alone m a k b hm hk hperiod
    · intro m a hm
      rw [update_apply] at hm
      split at hm
      · cases hm
        exact open_holds hgate s.db
      · exact h.copies m a hm
  | moved n a a' ha hpolicy hperiod hholds =>
    have hback : ∀ m b, update s.admissions n (some a') m = some b →
        ∃ old, s.admissions m = some old ∧ old.period = b.period := by
      intro m b hm
      rw [update_apply] at hm
      split at hm
      · rename_i hmn
        cases hm
        exact ⟨a, hmn ▸ ha, hperiod.symm⟩
      · exact ⟨b, hm, rfl⟩
    refine ⟨h.books, ?_, ?_⟩
    · intro m b k c hm hk hsame
      obtain ⟨old, hold, hp⟩ := hback m b hm
      obtain ⟨old', hold', hp'⟩ := hback k c hk
      exact h.alone m old k old' hold hold' (hp.trans (hsame.trans hp'.symm))
    · intro m b hm
      rw [update_apply] at hm
      split at hm
      · cases hm
        exact hholds
      · exact h.copies m b hm
  | closed n =>
    exact ⟨h.books, halone n, fun m a hm => h.copies m a (hclosed n m a hm).2⟩
  | reused n a ha =>
    refine ⟨h.books.ensure a.period, halone n, ?_⟩
    intro m b hm
    obtain ⟨hb, hne⟩ := hother ha hm
    exact (h.copies m b hb).untouched (.ensure hne)
  | committed n a released reservationId runId now ha hphase hreservation hrun =>
    obtain ⟨hbooks, hothers, -, -⟩ :=
      (h.copies n a ha).commit h.books hphase now hreservation hrun
    refine ⟨hbooks, halone n, ?_⟩
    intro m b hm
    obtain ⟨hb, hne⟩ := hother ha hm
    exact (h.copies m b hb).untouched (hothers b.period hne)

theorem proceed_passes (s : State) (n : Nat) (a : Admission) : (s.proceed n a).passes = s.passes := by
  unfold proceed
  split
  · split <;> rfl
  · split
    · rfl
    · split <;> rfl
  · rfl
  · rfl

theorem step_repairs
    (h : ∀ n todo st, s.passes n = some ⟨todo, some st⟩ → st.Repairs) :
    ∀ n todo st, (s.step event).2.passes n = some ⟨todo, some st⟩ → st.Repairs := by
  have hset : ∀ k pass, (∀ todo st, pass = some ⟨todo, some st⟩ → st.Repairs) →
      ∀ n todo st, update s.passes k pass n = some ⟨todo, some st⟩ → st.Repairs := by
    intro k pass hpass n todo st hn
    rw [update_apply] at hn
    split at hn
    · exact hpass todo st hn
    · exact h n todo st hn
  cases event with
  | exec st => exact h
  | admission n request =>
    simp only [step]
    split
    · split <;> exact h
    · exact h
  | proceed n =>
    simp only [step]
    split
    · exact h
    · rw [proceed_passes]
      exact h
  | commit n reservationId runId now =>
    simp only [step]
    split
    · exact h
    · split <;> exact h
  | abort n => exact h
  | reconcile n terminalBefore partialBefore limit => exact hset n _ fun todo st heq => by cases heq
  | pass n =>
    simp only [step]
    split
    · exact h
    · exact hset n _ fun todo st heq => by cases heq
    · exact hset n _ fun todo st heq => by cases heq
    · refine hset n _ fun todo st heq => ?_
      obtain ⟨-, hone⟩ := Pass.mk.inj (Option.some.inj heq)
      exact reconcileOne_repairs hone

theorem Sound.step (h : Sound c.state)
    (hallowed : Allowed c event) : Sound (advance step c event).state := by
  obtain ⟨hbooks, halone, hcopies⟩ := (step_effect hallowed h).sound h
  exact ⟨hbooks, halone, hcopies, step_repairs h.repairs⟩

theorem Sound.start : Sound start := by
  refine ⟨⟨List.nodup_nil, List.nodup_nil, ?_, ?_, ?_, ?_⟩, ?_, ?_, ?_⟩
  · exact fun r hr => absurd hr List.not_mem_nil
  · intro p row hrow
    cases hrow
  · intro p row hrow
    cases hrow
  · exact fun r hr => absurd hr List.not_mem_nil
  · intro n a m b hn
    cases hn
  · intro n a hn
    cases hn
  · intro n todo st hn
    cases hn

theorem Effect.later (he : Effect s event db admissions) (h : Sound s) : Later s.db db := by
  cases he with
  | stays => exact .refl s.db
  | ran st hfree hfresh => exact .exec s.db st
  | opened n request policy hevent hgate hfree | moved n a a' ha hpolicy hperiod hholds
  | closed n => exact .refl s.db
  | reused n a ha => exact .ensure s.db a.period
  | committed n a released reservationId runId now ha hphase hreservation hrun =>
    exact ((h.copies n a ha).commit h.books hphase now hreservation hrun).2.2.1

/-! ## The limit -/

/-- Every admission to the period so far was under this limit. -/
def Enforced (p : PeriodId) (limit : Int) (past : List (Event × Unit)) : Prop :=
  ∀ e ∈ past, ∀ n request policy, e.1 = .admission n request → quotaPolicy request.gate = some policy →
    request.period policy = p → policy.action = .enforce ∧ policy.limit = limit

/-- The admission was opened under its policy by an event of the past. -/
def OpenedBy (past : List (Event × Unit)) (a : Admission) : Prop :=
  ∃ e ∈ past, ∃ n request, e.1 = .admission n request ∧ quotaPolicy request.gate = some a.policy ∧
    request.period a.policy = a.period

variable {past : List (Event × Unit)}

theorem OpenedBy.later (h : OpenedBy past a) (e : Event × Unit) :
    OpenedBy (past ++ [e]) a := by
  obtain ⟨e', he', hopened⟩ := h
  exact ⟨e', List.mem_append_left _ he', hopened⟩

/-- An enforced limit is the limit of every open admission to the period. -/
theorem OpenedBy.enforced (h : OpenedBy past a) (henforced : Enforced p limit past)
    (hp : a.period = p) :
    a.policy.action = .enforce ∧ a.policy.limit = limit := by
  obtain ⟨e, he, n, request, hevent, hgate, hperiod⟩ := h
  exact henforced e he n request a.policy hevent hgate (hperiod.trans hp)

theorem Effect.opens (he : Effect s event db admissions)
    (h : ∀ n a, s.admissions n = some a → OpenedBy past a) :
    ∀ n a, admissions n = some a → OpenedBy (past ++ [(event, ())]) a := by
  have hset : ∀ k new, (∀ a, new = some a → OpenedBy (past ++ [(event, ())]) a) →
      ∀ n a, update s.admissions k new n = some a → OpenedBy (past ++ [(event, ())]) a := by
    intro k new hnew n a hn
    rw [update_apply] at hn
    split at hn
    · exact hnew a hn
    · exact (h n a hn).later _
  cases he with
  | stays | ran st hfree hfresh => exact fun n a ha => (h n a ha).later _
  | opened n request policy hevent hgate hfree =>
    refine hset n _ fun a heq => ?_
    cases heq
    exact ⟨(event, ()), List.mem_append_right _ (List.mem_singleton_self _), n, request, hevent,
      hgate, rfl⟩
  | moved n a a' ha hpolicy hperiod hholds =>
    refine hset n _ fun b heq => ?_
    cases heq
    obtain ⟨e, hmem, m, request, hevent, hgate, hp⟩ := (h n a ha).later (event, ())
    rw [← hpolicy] at hgate hp
    exact ⟨e, hmem, m, request, hevent, hgate, hp.trans hperiod.symm⟩
  | closed n | reused n a ha => exact hset n _ fun a heq => by cases heq
  | committed n a released reservationId runId now ha hphase hreservation hrun =>
    exact hset n _ fun a heq => by cases heq

variable {row : Period}

/-- No statement raises the sum of the two counters. -/
theorem exec_total (hrow : (db.exec st).periods p = some row) :
    ∃ old, db.periods p = some old ∧
      row.usedCount + row.reservedCount ≤ old.usedCount + old.reservedCount := by
  rw [periods_exec] at hrow
  obtain ⟨old, hold, rfl⟩ := Option.map_eq_some_iff.mp hrow
  refine ⟨old, hold, ?_⟩
  have hamount := Db.amount_nonneg db st p
  unfold Period.settle
  dsimp only
  split <;> omega

theorem ensure_total {q : PeriodId} (hrow : (db.ensure q).periods p = some row) :
    db.periods p = some row ∨ (p = q ∧ row.usedCount + row.reservedCount = 0) := by
  change update db.periods q (some ((db.periods q).getD ⟨0, 0, fun _ => 0⟩)) p = some row at hrow
  rw [update_apply] at hrow
  split at hrow
  · rename_i hp
    cases hold : db.periods q with
    | none =>
      rw [hold] at hrow
      cases hrow
      exact .inr ⟨hp, rfl⟩
    | some old =>
      rw [hold] at hrow
      rw [hp, hold]
      exact .inl hrow
  · exact .inl hrow

theorem Untouched.total {db' : Db} (h : Untouched p db db') (hrow : db'.periods p = some row) :
    ∃ old, db.periods p = some old ∧
      row.usedCount + row.reservedCount = old.usedCount + old.reservedCount := by
  have hthere := h.there
  rw [hrow, Option.isSome_some] at hthere
  obtain ⟨old, hold⟩ := Option.isSome_iff_exists.mp hthere.symm
  have hcounters := h.counters
  unfold Db.counters at hcounters
  rw [hrow, hold] at hcounters
  have hused : row.usedCount = old.usedCount := congrArg Prod.fst hcounters
  have hreserved : row.reservedCount = old.reservedCount := congrArg Prod.snd hcounters
  exact ⟨old, hold, by rw [hused, hreserved]⟩

/-- Where the open admissions have the limit, no step passes it. -/
theorem Effect.within (he : Effect s event db admissions) (hsound : Sound s)
    (hpolicies : ∀ n a, s.admissions n = some a → a.period = p →
      a.policy.action = .enforce ∧ a.policy.limit = limit)
    (htotal : ∀ row, s.db.periods p = some row → row.usedCount + row.reservedCount ≤ limit) :
    ∀ row, db.periods p = some row → row.usedCount + row.reservedCount ≤ limit := by
  cases he with
  | stays => exact htotal
  | ran st hfree hfresh =>
    intro row hrow
    obtain ⟨old, hold, hle⟩ := exec_total hrow
    exact Int.le_trans hle (htotal old hold)
  | opened n request policy hevent hgate hfree | moved n a a' ha hpolicy hperiod hholds
  | closed n => exact htotal
  | reused n a ha =>
    intro row hrow
    rcases ensure_total hrow with hold | ⟨hp, hzero⟩
    · exact htotal row hold
    · rw [hzero, ← (hpolicies n a ha hp.symm).2]
      exact (hsound.copies n a ha).limit
  | committed n a released reservationId runId now ha hphase hreservation hrun =>
    intro row hrow
    obtain ⟨-, hothers, -, hlimit⟩ :=
      (hsound.copies n a ha).commit hsound.books hphase now hreservation hrun
    by_cases hp : p = a.period
    · obtain ⟨henforce, hsame⟩ := hpolicies n a ha hp.symm
      rw [hp] at hrow
      rcases hlimit henforce row hrow with hle | ⟨old, hold, hle⟩
      · rw [← hsame]
        exact hle
      · exact Int.le_trans hle (htotal old (hp ▸ hold))
    · obtain ⟨old, hold, heq⟩ := (hothers p hp).total hrow
      rw [heq]
      exact htotal old hold

/-! ## Runs -/

/-- What holds after every run. -/
structure Accounted (c : Config State Event Unit) : Prop where
  sound : Sound c.state
  opened : ∀ n a, c.state.admissions n = some a → OpenedBy c.past a
  limit : ∀ p limit, Enforced p limit c.past → ∀ row, c.state.db.periods p = some row →
    row.usedCount + row.reservedCount ≤ limit

theorem Accounted.step (hallowed : Allowed c event) (h : Accounted c) :
    Accounted (advance step c event) := by
  have heffect := step_effect hallowed h.sound
  refine ⟨h.sound.step hallowed, heffect.opens h.opened, ?_⟩
  intro p limit henforced
  have hbefore : Enforced p limit c.past := fun e he => henforced e (List.mem_append_left _ he)
  exact heffect.within h.sound (fun n a ha hp => (h.opened n a ha).enforced hbefore hp)
    (h.limit p limit hbefore)

theorem Accounted.start : Accounted (start start) where
  sound := .start
  opened := by
    intro n a hn
    cases hn
  limit := by
    intro p limit _ row hrow
    cases hrow

theorem accounted (h : Reach step Allowed (start start) c) :
    Accounted c :=
  h.invariant (I := Accounted) (fun _ _ hallowed hd => hd.step hallowed) .start

theorem later {d : Config State Event Unit} (hc : Accounted c) (h : Reach step Allowed c d) :
    Later c.state.db d.state.db :=
  Reach.rel (R := fun c d => Later c.state.db d.state.db) (fun d => .refl d.state.db)
    (fun _ _ _ => Later.trans) (fun _ _ hallowed hd => Accounted.step hallowed hd)
    (fun _ _ hallowed hd => (step_effect hallowed hd.sound).later hd.sound) h hc

theorem quota_accounted {c : Config State Event Unit}
    (h : Reach step Allowed (start start) c) :
    (∀ p row, c.state.db.periods p = some row →
      row.reservedCount = c.state.db.reservations.countP (fun r => r.period = p && r.state = .reserved) ∧
      row.usedCount = c.state.db.reservations.countP (fun r => r.period = p && r.state = .consumed) ∧
      0 ≤ row.reservedCount ∧ 0 ≤ row.usedCount ∧
      ∀ limit, Enforced p limit c.past → row.usedCount + row.reservedCount ≤ limit) ∧
    (∀ r ∈ c.state.db.reservations, (c.state.db.periods r.period).isSome = true) ∧
    (∀ r ∈ c.state.db.reservations, ∀ r' ∈ c.state.db.reservations, r.period = r'.period →
      r.idempotencyKey = r'.idempotencyKey → r.state ≠ .released → r'.state ≠ .released → r = r') ∧
    ∀ d, Reach step Allowed c d →
      (∀ p row, c.state.db.periods p = some row →
        ∃ row', d.state.db.periods p = some row' ∧ row.usedCount ≤ row'.usedCount) ∧
      ∀ r ∈ c.state.db.reservations, r.state ≠ .reserved →
        r ∈ d.state.db.reservations ∧ ∀ r' ∈ d.state.db.reservations, r'.id = r.id → r' = r := by
  have hc := accounted h
  have hbooks := hc.sound.books
  refine ⟨?_, hbooks.owned, hbooks.once, ?_⟩
  · intro p row hrow
    have hreserved := hbooks.reserved p row hrow
    have hused := hbooks.used p row hrow
    refine ⟨hreserved, hused, ?_, ?_, fun limit henforced => hc.limit p limit henforced row hrow⟩
    · rw [hreserved]
      exact Int.natCast_nonneg _
    · rw [hused]
      exact Int.natCast_nonneg _
  · intro d hd
    have hlater := later hc hd
    refine ⟨hlater.used, fun r hr hfinal => ?_⟩
    have hmem := hlater.final r hr hfinal
    exact ⟨hmem, fun r' hr' hid =>
      (accounted (h.trans hd)).sound.books.keyed.eq_of_key hr' hmem hid⟩

def manualRequest (key : String) : Request :=
  ⟨"ws", ⟨.enforce, some 2, some 0, some 10, some 10⟩, "manual", key, ⟨0, "manual", .pending, none, none, none⟩⟩

/-- Under a limit of two a run is admitted and charged, a second one is admitted,
a third one is blocked, and the second one is released. -/
def chargedRun : List Event :=
  [.admission 0 (manualRequest "first"), .proceed 0, .commit 0 7 8 3, .exec (.consume 7),
    .admission 0 (manualRequest "second"), .proceed 0, .commit 0 9 10 4,
    .admission 0 (manualRequest "third"), .proceed 0, .commit 0 11 12 5, .exec (.release 9)]

theorem quota_accounted_charged :
    let c := exec step (start start) (chargedRun.take 10)
    let d := exec step c [.exec (.release 9)]
    c.state.db.reservations.map Reservation.state = [.consumed, .reserved] ∧
      d.state.db.reservations.map Reservation.state = [.consumed, .released] ∧
      (∀ row, c.state.db.periods ⟨"ws", 0, 10⟩ = some row →
        row.usedCount = 1 ∧ row.reservedCount = 1 ∧ row.usedCount + row.reservedCount ≤ 2 ∧
          ∃ row', d.state.db.periods ⟨"ws", 0, 10⟩ = some row' ∧ row.usedCount ≤ row'.usedCount) ∧
      ∀ r ∈ c.state.db.reservations, r.state = .consumed → r ∈ d.state.db.reservations := by
  intro c d
  have hidle : ∀ {k : Nat}, k ∈ [0, 3, 4, 7, 10] → ∀ p,
      ¬ (exec step (start start) (chargedRun.take k)).state.lockedPeriod p := by
    intro k hk p
    simp only [List.mem_cons, List.not_mem_nil, or_false] at hk
    rintro ⟨n, a, ha, -⟩
    rcases hk with rfl | rfl | rfl | rfl | rfl <;> cases n <;> cases ha
  have hopen : ∀ {k : Nat}, k ∈ [0, 3, 4, 7, 10] → ∀ st,
      ¬ (exec step (start start) (chargedRun.take k)).state.waits st := by
    rintro k hk st ⟨r, -, -, hlocked⟩
    exact hidle hk _ hlocked
  have hallowed : AllAllowed step Allowed (start start) (chargedRun.take 10) :=
    ⟨⟨rfl, hidle (k := 0) (by decide) _⟩, trivial, ⟨by decide, by decide⟩, ⟨hopen (k := 3) (by decide) _, trivial⟩,
      ⟨rfl, hidle (k := 4) (by decide) _⟩, trivial, ⟨by decide, by decide⟩,
      ⟨rfl, hidle (k := 7) (by decide) _⟩, trivial, ⟨by decide, by decide⟩, trivial⟩
  have haccounted := quota_accounted (reach_exec hallowed)
  have hlater := haccounted.2.2.2 d (reach_exec ⟨⟨hopen (k := 10) (by decide) _, trivial⟩, trivial⟩)
  refine ⟨by decide, by decide, fun row hrow => ?_, fun r hr hr' => ?_⟩
  · obtain ⟨hreserved, hused, -, -, hlimit⟩ := haccounted.1 ⟨"ws", 0, 10⟩ row hrow
    refine ⟨hused.trans (by decide), hreserved.trans (by decide), hlimit 2 ?_, hlater.1 _ row hrow⟩
    intro e he n request policy hevent hpolicy _
    have hpast : e ∈ (chargedRun.take 10).map fun event => (event, ()) := he
    simp only [chargedRun, List.take, List.map, List.mem_cons, List.not_mem_nil, or_false] at hpast
    rcases hpast with rfl | rfl | rfl | rfl | rfl | rfl | rfl | rfl | rfl | rfl <;> cases hevent <;>
      cases hpolicy <;> exact ⟨rfl, rfl⟩
  · exact (hlater.2 r hr (by rw [hr']; decide)).1

end ClawMessenger.Ports.AutopilotQuota
