import ClawMessenger.Ports.AutopilotQuotaBooks

/-!
# Runs of the autopilot quota

What the lock of an admission keeps away from its period (`Untouched`), what its
copy of the counters is worth until it commits (`Holds`), and the invariant of
all steps (`Sound`).  `quota_accounted` is what follows for every committed
state.
-/

namespace ClawMessenger.Ports.AutopilotQuota

open ClawMessenger.Verified Machine

variable {db db' db'' : Db} {st : Statement} {p : PeriodId} {a : Admission}

theorem modifyPeriod_at (db : Db) (p : PeriodId) (f : Period → Period) :
    (db.modifyPeriod p f).periods p = (db.periods p).map f := Function.update_self _ _ _

theorem insertRun_periods (db : Db) (run : Run) : (db.insertRun run).periods = db.periods := rfl

theorem Db.amount_nonneg (db : Db) (st : Statement) (p : PeriodId) : 0 ≤ db.amount st p := by
  unfold Db.amount
  cases st with
  | failByIssue issueId => exact Int.natCast_nonneg _
  | _ =>
    dsimp only
    split
    · exact Int.le_refl 0
    · decide

/-! ## What others leave alone -/

structure Untouched (p : PeriodId) (db db' : Db) : Prop where
  there : (db'.periods p).isSome = (db.periods p).isSome
  counters : db'.counters p = db.counters p
  rows : ∀ r ∈ db.reservations, r.period = p → r ∈ db'.reservations

/-- What only adds to the books: the used counts and the final states stay. -/
structure Later (db db' : Db) : Prop where
  used : ∀ p row, db.periods p = some row →
    ∃ row', db'.periods p = some row' ∧ row.usedCount ≤ row'.usedCount
  final : ∀ r ∈ db.reservations, r.state ≠ .reserved → r ∈ db'.reservations

namespace Untouched

theorem refl (p : PeriodId) (db : Db) : Untouched p db db := ⟨rfl, rfl, fun _ hr _ => hr⟩

theorem trans (h : Untouched p db db') (h' : Untouched p db' db'') : Untouched p db db'' :=
  ⟨h'.there.trans h.there, h'.counters.trans h.counters,
    fun r hr hp => h'.rows r (h.rows r hr hp) hp⟩

theorem of_periods (hperiods : db'.periods p = db.periods p)
    (hrows : ∀ r ∈ db.reservations, r ∈ db'.reservations) : Untouched p db db' := by
  refine ⟨by rw [hperiods], ?_, fun r hr _ => hrows r hr⟩
  unfold Db.counters
  rw [hperiods]

section

variable (h : ∀ r ∈ db.reservations, db.changes st r = true → r.period ≠ p)
include h

theorem amount_zero :
    db.amount st p = 0 := by
  have hnil : (db.reservations.filter fun r => db.changes st r && r.period = p) = [] := by
    rw [List.filter_eq_nil_iff]
    intro r hr hchanges
    rw [Bool.and_eq_true, decide_eq_true_iff] at hchanges
    exact h r hr hchanges.1 hchanges.2
  unfold Db.amount
  cases st with
  | failByIssue issueId =>
    dsimp only
    rw [hnil]
    rfl
  | _ => exact if_pos hnil

theorem exec :
    Untouched p db (db.exec st) := by
  refine ⟨?_, ?_, ?_⟩
  · rw [periods_exec, Option.isSome_map]
  · unfold Db.counters
    rw [periods_exec, amount_zero h, Option.map_map]
    congr 2
    funext row
    show (if st.consumes then row.usedCount + 0 else row.usedCount, row.reservedCount - 0) = _
    rw [Int.sub_zero, Int.add_zero, ite_self]
    rfl
  · intro r hr hp
    refine mem_exec.mpr (.inr ⟨hr, ?_⟩)
    by_contra hchanges
    exact h r hr (by simpa using hchanges) hp

end

theorem ensure {q : PeriodId} (hne : p ≠ q) : Untouched p db (db.ensure q) :=
  of_periods (Function.update_of_ne hne _ _) fun _ hr => hr

theorem modifyPeriod {q : PeriodId} (f : Period → Period) (hne : p ≠ q) :
    Untouched p db (db.modifyPeriod q f) :=
  of_periods (Function.update_of_ne hne _ _) fun _ hr => hr

end Untouched

namespace Later

theorem refl (db : Db) : Later db db := ⟨fun _ row hrow => ⟨row, hrow, Int.le_refl _⟩, fun _ hr _ => hr⟩

theorem trans (h : Later db db') (h' : Later db' db'') : Later db db'' := by
  constructor
  · intro p row hrow
    obtain ⟨row', hrow', hle⟩ := h.used p row hrow
    obtain ⟨row'', hrow'', hle'⟩ := h'.used p row' hrow'
    exact ⟨row'', hrow'', Int.le_trans hle hle'⟩
  · exact fun r hr hfinal => h'.final r (h.final r hr hfinal) hfinal

theorem exec (db : Db) (st : Statement) : Later db (db.exec st) := by
  constructor
  · intro p row hrow
    refine ⟨row.settle (db.amount st p) st.consumes, ?_, ?_⟩
    · rw [periods_exec, hrow]
      rfl
    · show row.usedCount ≤ if st.consumes then row.usedCount + db.amount st p else row.usedCount
      have hpos := Db.amount_nonneg db st p
      split <;> omega
  · intro r hr hfinal
    refine mem_exec.mpr (.inr ⟨hr, ?_⟩)
    by_contra hchanges
    exact hfinal (changes_iff.mp (by simpa using hchanges)).1

theorem modifyPeriod (db : Db) (q : PeriodId) (f : Period → Period)
    (hf : ∀ row, (f row).usedCount = row.usedCount) : Later db (db.modifyPeriod q f) := by
  refine ⟨?_, fun _ hr _ => hr⟩
  intro p row hrow
  show ∃ row', Function.update db.periods q _ p = some row' ∧ _
  rw [Function.update_apply]
  split
  · rename_i hp
    refine ⟨f row, ?_, ?_⟩
    · rw [← hp, hrow]
      rfl
    · rw [hf]
  · exact ⟨row, hrow, Int.le_refl _⟩

theorem ensure (db : Db) (q : PeriodId) : Later db (db.ensure q) := by
  refine ⟨?_, fun _ hr _ => hr⟩
  intro p row hrow
  refine ⟨row, ?_, Int.le_refl _⟩
  show Function.update db.periods q _ p = some row
  rw [Function.update_apply]
  split
  · rename_i hp
    rw [← hp, hrow]
    rfl
  · exact hrow

theorem incrementReserved (db : Db) (q : PeriodId) : Later db (db.incrementReserved q) :=
  modifyPeriod db q _ fun _ => rfl

theorem insert (db : Db) (r : Reservation) :
    Later db { db with reservations := db.reservations ++ [r] } :=
  ⟨fun _ row hrow => ⟨row, hrow, Int.le_refl _⟩, fun _ hr _ => List.mem_append_left _ hr⟩

theorem insertRun (db : Db) (run : Run) : Later db (db.insertRun run) :=
  ⟨fun _ row hrow => ⟨row, hrow, Int.le_refl _⟩, fun _ hr _ => hr⟩

end Later

/-! ## The copy of an open admission -/

/-- What the admission has taken from its copy already. -/
def Phase.taken : Phase → Int
  | .deciding (some _) => 1
  | _ => 0

/-- The reservation an admission is about to release, or has released. -/
def Phase.releases (db : Db) (p : PeriodId) : Phase → Prop
  | .locked => True
  | .found existing => existing ∈ db.reservations ∧ existing.period = p
  | .orphan existing => existing ∈ db.reservations ∧ existing.period = p ∧ existing.state = .reserved
  | .deciding none => True
  | .deciding (some id) => ∃ r ∈ db.reservations, r.id = id ∧ r.period = p ∧ r.state = .reserved

structure Holds (db : Db) (a : Admission) : Prop where
  used : a.usedCount = (db.counters a.period).1
  reserved : a.reservedCount = (db.counters a.period).2 - a.phase.taken
  releases : a.phase.releases db a.period
  limit : 0 ≤ a.policy.limit

theorem Holds.untouched (h : Holds db a) (hsame : Untouched a.period db db') : Holds db' a where
  used := by rw [hsame.counters, h.used]
  reserved := by rw [hsame.counters, h.reserved]
  releases := by
    have hold := h.releases
    cases hphase : a.phase with
    | locked => trivial
    | found existing =>
      rw [hphase] at hold
      exact ⟨hsame.rows existing hold.1 hold.2, hold.2⟩
    | orphan existing =>
      rw [hphase] at hold
      exact ⟨hsame.rows existing hold.1 hold.2.1, hold.2⟩
    | deciding released =>
      rw [hphase] at hold
      cases released with
      | none => trivial
      | some id =>
        obtain ⟨r, hr, hid, hp, hstate⟩ := hold
        exact ⟨r, hsame.rows r hr hp, hid, hp, hstate⟩
  limit := h.limit

/-- The transaction as it stands when it looks at the limit. -/
theorem Holds.prepared (h : Holds db a) (hbooks : Books db) {released : Option Nat}
    (hphase : a.phase = .deciding released) :
    Books (db.prepared a.period released) ∧
      (∃ row, (db.prepared a.period released).periods a.period = some row ∧
        row.counters = (a.usedCount, a.reservedCount)) ∧
      (∀ q, q ≠ a.period → Untouched q db (db.prepared a.period released)) ∧
      Later db (db.prepared a.period released) ∧
      (∀ r ∈ (db.prepared a.period released).reservations, ∃ old ∈ db.reservations, old.id = r.id) ∧
      (db.prepared a.period released).runs = db.runs := by
  have hensured := hbooks.ensure a.period
  obtain ⟨row, hrow, hcounters⟩ := ensure_at db a.period
  have hused := h.used
  have hreserved := h.reserved
  rw [hphase] at hreserved
  cases released with
  | none =>
    refine ⟨hensured, ⟨row, hrow, ?_⟩, fun q hq => .ensure hq, .ensure db a.period,
      fun r hr => ⟨r, hr, rfl⟩, rfl⟩
    rw [hcounters, hused, hreserved]
    exact Prod.ext rfl (Int.sub_zero _).symm
  | some id =>
    have hreleases := h.releases
    rw [hphase] at hreleases
    obtain ⟨r, hr, hid, hp, hstate⟩ := hreleases
    have hchanges : (db.ensure a.period).changes (.release id) r = true := by
      refine changes_iff.mpr ⟨hstate, ?_, ?_⟩
      · simp [Statement.selects, hid]
      · rw [hp, hrow]
        rfl
    have hamount : (db.ensure a.period).amount (.release id) a.period = 1 := by
      show (if ((db.ensure a.period).reservations.filter fun r =>
        (db.ensure a.period).changes (.release id) r && r.period = a.period) = [] then 0 else 1) = 1
      rw [if_neg]
      intro hnil
      rw [List.filter_eq_nil_iff] at hnil
      exact hnil r hr (by rw [hchanges, hp]; simp)
    have honly : ∀ q, q ≠ a.period → ∀ r' ∈ (db.ensure a.period).reservations,
        (db.ensure a.period).changes (.release id) r' = true → r'.period ≠ q := by
      intro q hq r' hr' hchanges' hperiod
      have hid' : r'.id = id := by
        have hselects := (changes_iff.mp hchanges').2.1
        simpa [Statement.selects] using hselects
      have heq := hbooks.keyed.eq_of_key hr hr' (hid.trans hid'.symm)
      rw [← heq, hp] at hperiod
      exact hq hperiod.symm
    refine ⟨hensured.exec trivial, ⟨row.settle 1 false, ?_, ?_⟩, ?_, ?_, ?_, ?_⟩
    · show ((db.ensure a.period).exec (.release id)).periods a.period = _
      rw [periods_exec, hrow, hamount]
      rfl
    · rw [← hcounters] at hused hreserved
      exact Prod.ext hused.symm hreserved.symm
    · intro q hq
      exact (Untouched.ensure hq).trans (.exec (honly q hq))
    · exact (Later.ensure db a.period).trans (.exec _ _)
    · intro r' hr'
      rcases mem_exec.mp hr' with ⟨old, hold, -, rfl⟩ | ⟨hr', -⟩
      · exact ⟨old, hold, rfl⟩
      · exact ⟨r', hr', rfl⟩
    · exact Rows.update_of_none _ fun _ _ => rfl

/-! ## A commit -/

/-- What a commit leaves behind. -/
theorem Holds.commit (h : Holds db a) (hbooks : Books db) {released : Option Nat}
    (hphase : a.phase = .deciding released) {reservationId runId : Nat} (now : Nat)
    (hreservation : ∀ r ∈ db.reservations, r.id ≠ reservationId)
    (hrun : ∀ run ∈ db.runs, run.id ≠ runId) :
    Books (a.commit db released reservationId runId now) ∧
      (∀ q, q ≠ a.period → Untouched q db (a.commit db released reservationId runId now)) ∧
      Later db (a.commit db released reservationId runId now) ∧
      (a.policy.action = .enforce → ∀ row,
        (a.commit db released reservationId runId now).periods a.period = some row →
          row.usedCount + row.reservedCount ≤ a.policy.limit ∨
            ∃ old, db.periods a.period = some old ∧
              row.usedCount + row.reservedCount ≤ old.usedCount + old.reservedCount) := by
  obtain ⟨hprepared, ⟨row, hrow, hcounters⟩, hothers, hlater, hids, hruns⟩ :=
    h.prepared hbooks hphase
  have hused : row.usedCount = a.usedCount := congrArg Prod.fst hcounters
  have hreserved : row.reservedCount = a.reservedCount := congrArg Prod.snd hcounters
  have htaken : 0 ≤ a.phase.taken := by
    rw [hphase]
    cases released with
    | none => exact Int.le_refl 0
    | some id =>
      show (0 : Int) ≤ 1
      decide
  unfold Admission.commit
  dsimp only
  split
  · -- the limit is reached: the attempt is counted as blocked
    refine ⟨hprepared.incrementBlocked _ _, fun q hq => (hothers q hq).trans (.modifyPeriod _ hq),
      hlater.trans (.modifyPeriod _ _ _ fun _ => rfl), ?_⟩
    intro _ row' hrow'
    rw [Db.incrementBlocked, modifyPeriod_at, hrow] at hrow'
    cases hrow'
    have hu := h.used
    have hr := h.reserved
    unfold Db.counters at hu hr
    cases hold : db.periods a.period with
    | none =>
      rw [hold] at hu hr
      left
      have hlimit := h.limit
      rw [hused, hreserved, hu, hr]
      show (0 : Int) + (0 - a.phase.taken) ≤ a.policy.limit
      omega
    | some old =>
      rw [hold] at hu hr
      refine .inr ⟨old, rfl, ?_⟩
      have hu' : a.usedCount = old.usedCount := hu
      have hr' : a.reservedCount = old.reservedCount - a.phase.taken := hr
      show row.usedCount + row.reservedCount ≤ old.usedCount + old.reservedCount
      omega
  · rename_i hblock
    unfold Db.insertReservation
    cases hkey : (db.prepared a.period released).byKey a.period a.idempotencyKey with
    | some other =>
      -- the unique index holds, and the transaction is rolled back
      refine ⟨hbooks, fun q _ => .refl q db, .refl db, ?_⟩
      intro _ row' hrow'
      exact .inr ⟨row', hrow', Int.le_refl _⟩
    | none =>
      dsimp only
      refine ⟨?_, ?_, ?_, ?_⟩
      · refine hprepared.reserve rfl ?_ ?_ hkey ?_
        · intro r hr
          obtain ⟨old, hold, hid⟩ := hids r hr
          rw [← hid]
          exact hreservation old hold
        · intro run hr
          rw [hruns] at hr
          exact hrun run hr
        · show ((db.prepared a.period released).periods a.period).isSome = true
          rw [hrow]
          rfl
      · intro q hq
        refine (hothers q hq).trans (.of_periods ?_ fun r hr => List.mem_append_left _ hr)
        exact Function.update_of_ne hq _ _
      · exact ((hlater.trans (.insert _ _)).trans (.incrementReserved _ a.period)).trans (.insertRun _ _)
      · intro henforce row' hrow'
        left
        rw [insertRun_periods, Db.incrementReserved, modifyPeriod_at] at hrow'
        rw [hrow] at hrow'
        cases hrow'
        show row.usedCount + (row.reservedCount + 1) ≤ a.policy.limit
        have hroom : ¬ a.policy.limit ≤ a.usedCount + a.reservedCount := fun hle => hblock ⟨hle, henforce⟩
        omega

end ClawMessenger.Ports.AutopilotQuota
