import ClawMessenger.Ports.AutopilotQuota
import ClawMessenger.Verified.RowCounts

/-!
# The books of the autopilot quota

The counters of a period are the numbers of its reservations (`Books`).  Every
statement that finalizes reservations takes as many units from the reserved
count as it finalizes, since a reservation is finalized where it is still
reserved and its period is there.  An admission reads the counters under the
lock of the period row, so its copy is what is committed, less the orphan that
it releases itself (`Holds`).
-/

namespace ClawMessenger.Ports.AutopilotQuota

open ClawMessenger.Verified Machine List
open Statement (selects updates)
open Function (update update_apply)

/-! ## Counts -/

def inState (p : PeriodId) (state : ReservationState) (r : Reservation) : Bool :=
  r.period = p && r.state = state

def Db.count (db : Db) (p : PeriodId) (state : ReservationState) : Nat :=
  db.reservations.countP (inState p state)

structure Books (db : Db) : Prop where
  keyed : Rows.Keyed Reservation.id db.reservations
  runs : Rows.Keyed Run.id db.runs
  owned : ∀ r ∈ db.reservations, (db.periods r.period).isSome = true
  reserved : ∀ p row, db.periods p = some row → row.reservedCount = db.count p .reserved
  used : ∀ p row, db.periods p = some row → row.usedCount = db.count p .consumed
  once : ∀ r ∈ db.reservations, ∀ r' ∈ db.reservations, r.period = r'.period →
    r.idempotencyKey = r'.idempotencyKey → r.state ≠ .released → r'.state ≠ .released → r = r'

/-! ## Statements -/

section Statements

variable {db : Db} {st : Statement} {r r' : Reservation} {p : PeriodId}

theorem changes_iff : db.changes st r = true ↔
    r.state = .reserved ∧ st.selects db r = true ∧ (db.periods r.period).isSome = true := by
  unfold Db.changes
  simp [Bool.and_eq_true, and_assoc]

/-- A statement about one run or one reservation finalizes one reservation. -/
theorem selects_unique (h : Books db) (hst : ∀ issueId, st ≠ .failByIssue issueId)
    (hr : st.selects db r = true) (hr' : st.selects db r' = true) : r.id = r'.id := by
  have hrun : ∀ runId, (∀ run, st.updates db run = true → run.id = runId) →
      (db.runs.any fun run => st.updates db run && run.quotaReservationId = some r.id) = true →
      (db.runs.any fun run => st.updates db run && run.quotaReservationId = some r'.id) = true →
        r.id = r'.id := by
    intro runId hrunId hany hany'
    obtain ⟨run, hmem, hsel⟩ := any_eq_true.mp hany
    obtain ⟨run', hmem', hsel'⟩ := any_eq_true.mp hany'
    rw [Bool.and_eq_true, decide_eq_true_iff] at hsel hsel'
    have heq : run = run' :=
      h.runs.eq_of_key hmem hmem' ((hrunId run hsel.1).trans (hrunId run' hsel'.1).symm)
    rw [← heq, hsel.2] at hsel'
    exact Option.some.inj hsel'.2
  cases st with
  | consume reservationId =>
    simp only [selects, decide_eq_true_iff] at hr hr'
    rw [hr, hr']
  | release reservationId =>
    simp only [selects, decide_eq_true_iff] at hr hr'
    rw [hr, hr']
  | terminal runId status charged =>
    exact hrun runId (fun run hrun => by simpa [updates] using hrun) hr hr'
  | recoverPartial runId =>
    refine hrun runId (fun run hrun => ?_) hr hr'
    simp only [updates, Bool.and_eq_true, decide_eq_true_iff] at hrun
    exact hrun.1.1
  | failByIssue issueId => exact absurd rfl (hst issueId)
  | issueCreated runId issueId =>
    exact hrun runId (fun run hrun => by simpa [updates] using hrun) hr hr'
  | running runId taskId => cases hr
  | createRun run =>
    simp [selects, updates] at hr
  | createTask runId =>
    simp [selects, updates] at hr
  | removeRun runId =>
    simp [selects, updates] at hr

/-- What leaves the reserved count of a period is what is finalized in it. -/
theorem amount_eq (h : Books db) (st : Statement) (p : PeriodId) : db.amount st p =
    (db.reservations.countP fun r => db.changes st r && inState p .reserved r : Nat) := by
  have hsame : (db.reservations.filter fun r => db.changes st r && r.period = p) =
      db.reservations.filter fun r => db.changes st r && inState p .reserved r := by
    apply filter_congr
    intro r _
    cases hr : db.changes st r with
    | false => rfl
    | true =>
      unfold inState
      rw [(changes_iff.mp hr).1]
      simp
  by_cases hst : ∃ issueId, st = .failByIssue issueId
  · obtain ⟨issueId, rfl⟩ := hst
    unfold Db.amount
    rw [hsame, countP_eq_length_filter]
  · have hone : db.reservations.countP (fun r => db.changes st r && inState p .reserved r) ≤ 1 := by
      apply h.keyed.countP_le_one
      intro r _ r' _ hr hr'
      rw [Bool.and_eq_true] at hr hr'
      exact selects_unique h (fun issueId heq => hst ⟨issueId, heq⟩) (changes_iff.mp hr.1).2.1
        (changes_iff.mp hr'.1).2.1
    have hamount : db.amount st p =
        if (db.reservations.filter fun r => db.changes st r && r.period = p) = [] then 0 else 1 := by
      cases st with
      | failByIssue issueId => exact absurd ⟨issueId, rfl⟩ hst
      | _ => rfl
    rw [hamount, hsame, countP_eq_length_filter]
    rw [countP_eq_length_filter] at hone
    split
    · rename_i hnil
      rw [hnil]
      rfl
    · rename_i hne
      have hpos := length_pos_of_ne_nil hne
      omega

theorem count_exec_reserved (db : Db) (st : Statement) (p : PeriodId) :
    ((db.exec st).count p .reserved : Int) = (db.count p .reserved : Int) -
      (db.reservations.countP fun r => db.changes st r && inState p .reserved r : Nat) := by
  have hafter := Rows.countP_update db.reservations (db.changes st)
    (fun r => r.finalize st.consumes) (inState p .reserved)
  have hnone : db.reservations.countP
      (fun r => db.changes st r && inState p .reserved (r.finalize st.consumes)) = 0 := by
    rw [countP_eq_zero]
    intro r _ hr
    simp only [inState, Reservation.finalize, Bool.and_eq_true] at hr
    cases hconsumes : st.consumes <;> simp [hconsumes] at hr
  have hbefore := Rows.countP_split db.reservations (db.changes st) (inState p .reserved)
  unfold Db.count
  show ((Rows.update db.reservations (db.changes st) _).countP _ : Int) = _
  omega

theorem count_exec_consumed (db : Db) (st : Statement) (p : PeriodId) :
    ((db.exec st).count p .consumed : Int) = (db.count p .consumed : Int) +
      if st.consumes then
        (db.reservations.countP fun r => db.changes st r && inState p .reserved r : Nat)
      else 0 := by
  have hafter := Rows.countP_update db.reservations (db.changes st)
    (fun r => r.finalize st.consumes) (inState p .consumed)
  have hbefore := Rows.countP_split db.reservations (db.changes st) (inState p .consumed)
  have hnone : db.reservations.countP (fun r => db.changes st r && inState p .consumed r) = 0 := by
    rw [countP_eq_zero]
    intro r _ hr
    rw [Bool.and_eq_true] at hr
    have hstate := (changes_iff.mp hr.1).1
    simp [inState, hstate] at hr
  have hnew : db.reservations.countP
      (fun r => db.changes st r && inState p .consumed (r.finalize st.consumes)) =
        if st.consumes then
          db.reservations.countP fun r => db.changes st r && inState p .reserved r
        else 0 := by
    cases hconsumes : st.consumes with
    | true =>
      rw [if_pos rfl]
      apply countP_congr
      intro r _
      cases hr : db.changes st r with
      | false => simp
      | true => simp [inState, Reservation.finalize, (changes_iff.mp hr).1]
    | false =>
      rw [if_neg Bool.false_ne_true, countP_eq_zero]
      intro r _ hr
      simp [inState, Reservation.finalize] at hr
  unfold Db.count
  show ((Rows.update db.reservations (db.changes st) _).countP _ : Int) = _
  split
  · rename_i hconsumes
    rw [if_pos hconsumes] at hnew
    omega
  · rename_i hconsumes
    rw [if_neg hconsumes] at hnew
    omega

/-- A new run has an id of its own. -/
def Fresh (db : Db) : Statement → Prop
  | .createRun run => ∀ run' ∈ db.runs, run'.id ≠ run.id
  | _ => True

theorem runs_exec (h : Books db) (hfresh : Fresh db st) : Rows.Keyed Run.id (db.exec st).runs := by
  have hupdate : Rows.Keyed Run.id (Rows.update db.runs (st.updates db) st.updated) := by
    apply h.runs.update
    intro run _
    cases st <;> rfl
  cases st with
  | createRun run => exact h.runs.insert hfresh
  | removeRun runId => exact h.runs.sublist (filter_sublist.map Run.id)
  | _ => exact hupdate

theorem periods_exec (db : Db) (st : Statement) (p : PeriodId) : (db.exec st).periods p =
    (db.periods p).map fun row => row.settle (db.amount st p) st.consumes := rfl

/-- A reservation after a statement. -/
theorem mem_exec : r ∈ (db.exec st).reservations ↔
    (∃ old ∈ db.reservations, db.changes st old = true ∧ r = old.finalize st.consumes) ∨
      (r ∈ db.reservations ∧ db.changes st r = false) := Rows.mem_update

theorem Books.exec (h : Books db) (hfresh : Fresh db st) : Books (db.exec st) where
  keyed := h.keyed.update _ fun _ _ => rfl
  runs := runs_exec h hfresh
  owned := by
    intro r hr
    rw [periods_exec, Option.isSome_map]
    rcases mem_exec.mp hr with ⟨old, hold, -, rfl⟩ | ⟨hr, -⟩
    · exact h.owned old hold
    · exact h.owned r hr
  reserved := by
    intro p row hrow
    rw [periods_exec] at hrow
    obtain ⟨old, hold, rfl⟩ := Option.map_eq_some_iff.mp hrow
    rw [count_exec_reserved, ← amount_eq h st p, ← h.reserved p old hold]
    rfl
  used := by
    intro p row hrow
    rw [periods_exec] at hrow
    obtain ⟨old, hold, rfl⟩ := Option.map_eq_some_iff.mp hrow
    have hcount := count_exec_consumed db st p
    have hamount := amount_eq h st p
    have hused := h.used p old hold
    show (if st.consumes then old.usedCount + db.amount st p else old.usedCount) = _
    cases hconsumes : st.consumes with
    | true =>
      rw [hconsumes, if_pos rfl] at hcount
      rw [if_pos rfl]
      omega
    | false =>
      rw [hconsumes, if_neg Bool.false_ne_true] at hcount
      rw [if_neg Bool.false_ne_true]
      omega
  once := by
    have hold : ∀ r ∈ (db.exec st).reservations, r.state ≠ .released → ∃ old ∈ db.reservations,
        old.state ≠ .released ∧ old.period = r.period ∧ old.idempotencyKey = r.idempotencyKey ∧
          r = if db.changes st old then old.finalize st.consumes else old := by
      intro r hr hstate
      rcases mem_exec.mp hr with ⟨old, hold, hchanges, rfl⟩ | ⟨hr, hchanges⟩
      · refine ⟨old, hold, ?_, rfl, rfl, ?_⟩
        · rw [(changes_iff.mp hchanges).1]
          decide
        · rw [if_pos hchanges]
      · refine ⟨r, hr, hstate, rfl, rfl, ?_⟩
        rw [if_neg (by rw [hchanges]; decide)]
    intro r hr r' hr' hperiod hkey hstate hstate'
    obtain ⟨old, hmem, hopen, hp, hk, heq⟩ := hold r hr hstate
    obtain ⟨old', hmem', hopen', hp', hk', heq'⟩ := hold r' hr' hstate'
    have hsame : old = old' := by
      apply h.once old hmem old' hmem' _ _ hopen hopen'
      · rw [hp, hp', hperiod]
      · rw [hk, hk', hkey]
    rw [heq, heq', hsame]

end Statements

/-! ## Admissions -/

section Admissions

variable {db db' : Db} {p q : PeriodId} {a : Admission}

def Period.counters (row : Period) : Int × Int := (row.usedCount, row.reservedCount)

/-- The counters of a period, zero for one that has no row yet. -/
def Db.counters (db : Db) (p : PeriodId) : Int × Int := ((db.periods p).map Period.counters).getD (0, 0)

theorem Books.ensure (h : Books db) (p : PeriodId) : Books (db.ensure p) := by
  have hrow : ∀ q row, (db.ensure p).periods q = some row → db.periods q = some row ∨
      (q = p ∧ db.periods p = none ∧ row = ⟨0, 0, fun _ => 0⟩) := by
    intro q row hrow
    change update db.periods p _ q = some row at hrow
    rw [update_apply] at hrow
    split at hrow
    · rename_i hq
      cases hp : db.periods p with
      | none =>
        rw [hp] at hrow
        exact .inr ⟨hq, rfl, (Option.some.inj hrow).symm⟩
      | some old =>
        rw [hp] at hrow
        rw [hq, hp]
        exact .inl hrow
    · exact .inl hrow
  have hempty : db.periods p = none → ∀ state, db.count p state = 0 := by
    intro hp state
    unfold Db.count
    rw [countP_eq_zero]
    intro r hr hstate
    simp only [inState, Bool.and_eq_true, decide_eq_true_iff] at hstate
    have howned := h.owned r hr
    rw [hstate.1, hp] at howned
    cases howned
  refine ⟨h.keyed, h.runs, ?_, ?_, ?_, h.once⟩
  · intro r hr
    show (update db.periods p _ r.period).isSome = true
    rw [update_apply]
    split
    · rfl
    · exact h.owned r hr
  · intro q row hq
    rcases hrow q row hq with hold | ⟨rfl, hnone, rfl⟩
    · exact h.reserved q row hold
    · show (0 : Int) = db.count q .reserved
      rw [hempty hnone]
      rfl
  · intro q row hq
    rcases hrow q row hq with hold | ⟨rfl, hnone, rfl⟩
    · exact h.used q row hold
    · show (0 : Int) = db.count q .consumed
      rw [hempty hnone]
      rfl

theorem ensure_at (db : Db) (p : PeriodId) : ∃ row, (db.ensure p).periods p = some row ∧
    row.counters = db.counters p := by
  refine ⟨_, Function.update_self _ _ _, ?_⟩
  unfold Db.counters
  cases db.periods p with
  | none | some row => rfl

theorem Books.incrementBlocked (h : Books db) (p : PeriodId) (source : String) :
    Books (db.incrementBlocked p source) := by
  have hrow : ∀ q row, (db.incrementBlocked p source).periods q = some row →
      ∃ old, db.periods q = some old ∧ row.counters = old.counters := by
    intro q row hrow
    change update db.periods p _ q = some row at hrow
    rw [update_apply] at hrow
    split at hrow
    · rename_i hq
      obtain ⟨old, hold, rfl⟩ := Option.map_eq_some_iff.mp hrow
      exact ⟨old, hq ▸ hold, rfl⟩
    · exact ⟨row, hrow, rfl⟩
  refine ⟨h.keyed, h.runs, ?_, ?_, ?_, h.once⟩
  · intro r hr
    show (update db.periods p _ r.period).isSome = true
    rw [update_apply]
    split
    · rename_i hq
      rw [Option.isSome_map, ← hq]
      exact h.owned r hr
    · exact h.owned r hr
  · intro q row hq
    obtain ⟨old, hold, hcounters⟩ := hrow q row hq
    exact (congrArg Prod.snd hcounters).trans (h.reserved q old hold)
  · intro q row hq
    obtain ⟨old, hold, hcounters⟩ := hrow q row hq
    exact (congrArg Prod.fst hcounters).trans (h.used q old hold)

/-- A reservation under a key that none has, and its unit. -/
theorem Books.reserve (h : Books db) {r : Reservation} {run : Run} (hstate : r.state = .reserved)
    (hid : ∀ old ∈ db.reservations, old.id ≠ r.id) (hrun : ∀ old ∈ db.runs, old.id ≠ run.id)
    (hkey : db.byKey r.period r.idempotencyKey = none) (hrow : (db.periods r.period).isSome = true) :
    Books ((({ db with reservations := db.reservations ++ [r] } : Db).incrementReserved r.period).insertRun
      run) := by
  have hkeys : ∀ old ∈ db.reservations, old.period = r.period →
      old.idempotencyKey = r.idempotencyKey → old.state = .released := by
    intro old hold hperiod hkey'
    have hno := find?_eq_none.mp hkey old hold
    simp only [hperiod, hkey', decide_true, Bool.true_and, ne_eq, decide_not, Bool.not_eq_true',
      decide_eq_false_iff_not, not_not] at hno
    exact hno
  have hcount : ∀ q state, (db.reservations ++ [r]).countP (inState q state) =
      db.count q state + if q = r.period ∧ state = .reserved then 1 else 0 := by
    intro q state
    rw [countP_append, countP_singleton]
    unfold Db.count inState
    rw [hstate]
    congr 1
    by_cases hq : q = r.period
    · by_cases hs : state = .reserved
      · simp [hq, hs]
      · have hs' : ¬ ReservationState.reserved = state := fun heq => hs heq.symm
        simp [hq, hs, hs']
    · have hq' : ¬ r.period = q := fun heq => hq heq.symm
      simp [hq, hq']
  have hat : ∀ q row, update db.periods r.period ((db.periods r.period).map fun row =>
      { row with reservedCount := row.reservedCount + 1 }) q = some row →
        ∃ old, db.periods q = some old ∧ row.usedCount = old.usedCount ∧
          row.reservedCount = old.reservedCount + if q = r.period then 1 else 0 := by
    intro q row hrow
    rw [update_apply] at hrow
    split at hrow
    · rename_i hq
      obtain ⟨old, hold, rfl⟩ := Option.map_eq_some_iff.mp hrow
      refine ⟨old, hq ▸ hold, rfl, ?_⟩
      rw [if_pos hq]
    · rename_i hq
      refine ⟨row, hrow, rfl, ?_⟩
      rw [if_neg hq, Int.add_zero]
  refine ⟨h.keyed.insert hid, h.runs.insert hrun, ?_, ?_, ?_, ?_⟩
  · intro old hold
    show (update db.periods r.period _ old.period).isSome = true
    rw [update_apply]
    split
    · rw [Option.isSome_map]
      exact hrow
    · rename_i hne
      rcases mem_append.mp hold with hold | hold
      · exact h.owned old hold
      · rw [mem_singleton.mp hold] at hne
        exact absurd rfl hne
  · intro q row hq
    obtain ⟨old, hold, -, hreserved⟩ := hat q row hq
    show row.reservedCount = ((db.reservations ++ [r]).countP (inState q .reserved) : Int)
    rw [hreserved, h.reserved q old hold, hcount]
    by_cases hq : q = r.period
    · rw [if_pos hq, if_pos ⟨hq, rfl⟩]
      rfl
    · rw [if_neg hq, if_neg (fun hand => hq hand.1)]
      rfl
  · intro q row hq
    obtain ⟨old, hold, hused, -⟩ := hat q row hq
    show row.usedCount = ((db.reservations ++ [r]).countP (inState q .consumed) : Int)
    rw [hused, h.used q old hold, hcount, if_neg (fun hand => by cases hand.2)]
    rfl
  · intro x hx y hy hperiod hsame hopen hopen'
    rcases mem_append.mp hx with hx | hx
    · rcases mem_append.mp hy with hy | hy
      · exact h.once x hx y hy hperiod hsame hopen hopen'
      · rw [mem_singleton.mp hy] at hperiod hsame
        exact absurd (hkeys x hx hperiod hsame) hopen
    · rw [mem_singleton.mp hx] at hperiod hsame ⊢
      rcases mem_append.mp hy with hy | hy
      · exact absurd (hkeys y hy hperiod.symm hsame.symm) hopen'
      · exact (mem_singleton.mp hy).symm

end Admissions

end ClawMessenger.Ports.AutopilotQuota
