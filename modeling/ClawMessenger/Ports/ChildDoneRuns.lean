import ClawMessenger.Ports.ChildDoneBatch
import ClawMessenger.Verified.Milestone

/-!
# Who announces a stage

Among the children up to a stage one is the last to become terminal.  The
request that wrote it has seen it open before, so it goes on to decide, and by
then nothing up to that stage is open (`InHand`).  It reports the stage of its
own child, or a later one when it is a batch, and no next stage that is already
closed.  When the last child is of an earlier stage, the later stage is not
named: it closed in silence.
-/

namespace ClawMessenger.Ports.ChildDone

open Verified Verified.Machine List
open OrderedMap (get?_set get?_set_ne get?_set_self)

/-! ## One row written -/

/-- A row after a write. -/
def rewrite (id : Nat) (status : String) (row : Issue) : Issue :=
  if row.id = id then { row with status := status } else row

@[simp] theorem rewrite_id (id : Nat) (status : String) (row : Issue) :
    (rewrite id status row).id = row.id := by
  unfold rewrite
  by_cases h : row.id = id
  · rw [if_pos h]
  · rw [if_neg h]

@[simp] theorem rewrite_parent (id : Nat) (status : String) (row : Issue) :
    (rewrite id status row).parentIssueID = row.parentIssueID := by
  unfold rewrite
  by_cases h : row.id = id
  · rw [if_pos h]
  · rw [if_neg h]

@[simp] theorem rewrite_stage (id : Nat) (status : String) (row : Issue) :
    (rewrite id status row).stage = row.stage := by
  unfold rewrite
  by_cases h : row.id = id
  · rw [if_pos h]
  · rw [if_neg h]

section

variable (rows : Table) (id : Nat) (status : String)
include rows id status

theorem writeStatus_eq :
    writeStatus rows id status = rows.map (rewrite id status) := by
  rw [writeStatus, Rows.update]
  apply map_congr_left
  intro row _
  simp [rewrite]

theorem getIssue_writeStatus (q : Nat) :
    getIssue (writeStatus rows id status) q = (getIssue rows q).map (rewrite id status) := by
  rw [writeStatus_eq, getIssue, find?_map, getIssue]
  congr 2
  funext row
  simp

theorem listChildIssues_writeStatus (p : Nat) :
    listChildIssues (writeStatus rows id status) p =
      (listChildIssues rows p).map (rewrite id status) := by
  rw [writeStatus_eq, listChildIssues, filter_map, listChildIssues]
  congr 2
  funext row
  simp

end

variable {rows : Table} {pc pc' : Call} {prev row : Issue} {status : String} {action : Action}
  {c : Cfg} {t : Int}

theorem keyed_writeStatus (h : Rows.Keyed Issue.id rows) (id : Nat)
    (status : String) : Rows.Keyed Issue.id (writeStatus rows id status) :=
  h.update _ fun _ _ => rfl

theorem staged_writeStatus (rows : Table) (id : Nat) (status : String) (p : Nat) :
    siblingsAreStaged (listChildIssues (writeStatus rows id status) p) =
      siblingsAreStaged (listChildIssues rows p) := by
  rw [listChildIssues_writeStatus, siblingsAreStaged, any_map, siblingsAreStaged]
  congr 1
  funext row
  simp

/-! ## What a statement does -/

/-- Rows a request may still write. -/
def Call.targets : Call → List Nat
  | .load id _ _ _ => [id]
  | .write prev _ _ _ => [prev.id]
  | .batchLoad ids _ _ _ => ids
  | .batchWrite prev ids _ _ _ => prev.id :: ids
  | _ => []

def Request.targets : Request → List Nat
  | .update id _ _ => [id]
  | .batch ids _ _ => ids
  | .advanceToDone id => [id]

/-- The row about to be written, and the status it gets. -/
def Call.writing : Call → Option (Issue × String)
  | .write prev status _ _ => some (prev, status)
  | .batchWrite prev _ status _ _ => some (prev, status)
  | _ => none

/-- Reads that come after a row was written. -/
def Call.reading : Call → Bool
  | .readParent _ _ => true
  | .readChildren _ _ => true
  | .batchParent _ => true
  | .batchChildren _ _ _ => true
  | _ => false

theorem targets_afterWrite (catalog : Catalog) (prev issue : Issue) (always : Bool) :
    (afterWrite catalog prev issue always).targets = [] ∧
      (afterWrite catalog prev issue always).writing = none := by
  unfold afterWrite
  by_cases hchanged : (always || prev.status != issue.status) = true
  · rw [if_pos hchanged]
    cases issue.parentIssueID with
    | none => exact ⟨rfl, rfl⟩
    | some parent =>
      dsimp only
      by_cases hcompletes : completes catalog prev issue = true
      · rw [if_pos hcompletes]
        exact ⟨rfl, rfl⟩
      · rw [if_neg hcompletes]
        exact ⟨rfl, rfl⟩
  · rw [if_neg hchanged]
    exact ⟨rfl, rfl⟩

theorem targets_giveUp (archived : Bool) (pc : Call) :
    (∀ q ∈ (giveUp archived pc).targets, q ∈ pc.targets) ∧ (giveUp archived pc).writing = none := by
  cases pc with
  | batchLoad ids status locked completed =>
    cases ids with
    | nil => exact ⟨nofun, rfl⟩
    | cons id ids => exact ⟨fun _ hq => mem_cons_of_mem _ hq, rfl⟩
  | batchWrite prev ids status locked completed =>
    cases archived with
    | true => exact ⟨nofun, rfl⟩
    | false => exact ⟨fun _ hq => mem_cons_of_mem _ hq, rfl⟩
  | batchParent groups =>
    cases groups with
    | nil | cons g groups => exact ⟨nofun, rfl⟩
  | load id status locked always | write prev status locked always
  | readParent parent issue | readChildren parent issue
  | batchChildren parent group groups | finished => exact ⟨nofun, rfl⟩

/-- What a statement does with the rows and with what a request will write. -/
structure Performs (rows : Table) (pc : Call) (rows' : Table) (pc' : Call) : Prop where
  table : rows' = rows ∨ ∃ prev status row, pc.writing = some (prev, status) ∧
    getIssue rows prev.id = some row ∧ rows' = writeStatus rows row.id status
  targets : ∀ q ∈ pc'.targets, q ∈ pc.targets
  loaded : ∀ prev status, pc'.writing = some (prev, status) →
    getIssue rows prev.id = some prev ∧ rows' = rows

theorem performs_reads (htargets : ∀ q ∈ pc'.targets, q ∈ pc.targets)
    (hwriting : pc'.writing = none) :
    Performs rows pc rows pc' := by
  refine ⟨.inl rfl, htargets, ?_⟩
  intro prev status h
  rw [hwriting] at h
  cases h

theorem performs_stops (htargets : pc'.targets = []) (hwriting : pc'.writing = none) :
    Performs rows pc rows pc' := by
  refine performs_reads ?_ hwriting
  intro q hq
  rw [htargets] at hq
  cases hq

theorem performs_loads {id : Nat} (hrow : getIssue rows id = some prev)
    (htargets : ∀ q ∈ pc'.targets, q ∈ pc.targets)
    (hwriting : pc'.writing = some (prev, status)) : Performs rows pc rows pc' := by
  refine ⟨.inl rfl, htargets, ?_⟩
  intro prev' status' h
  rw [hwriting, Option.some.injEq, Prod.mk.injEq] at h
  rw [← h.1, getIssue_id hrow]
  exact ⟨hrow, rfl⟩

theorem performs_writes (hwrites : pc.writing = some (prev, status))
    (hrow : getIssue rows prev.id = some row) (htargets : ∀ q ∈ pc'.targets, q ∈ pc.targets)
    (hwriting : pc'.writing = none) :
    Performs rows pc (writeStatus rows row.id status) pc' := by
  refine ⟨.inr ⟨prev, status, row, hwrites, hrow, rfl⟩, htargets, ?_⟩
  intro prev' status' h
  rw [hwriting] at h
  cases h

theorem perform_performs (catalog : Catalog) (rows : Table) (call : Nat) (pc : Call) :
    Performs rows pc (perform catalog rows call pc).1 (perform catalog rows call pc).2.1 := by
  cases pc with
  | load id status locked always =>
    simp only [perform]
    cases hrow : getIssue rows id with
    | none => exact performs_stops rfl rfl
    | some prev =>
      apply performs_loads hrow _ rfl
      intro q hq
      simpa [Call.targets, getIssue_id hrow] using hq
  | write prev status locked always =>
    simp only [perform]
    cases hrow : getIssue rows prev.id with
    | none => exact performs_stops rfl rfl
    | some row =>
      have hafter := targets_afterWrite catalog (if locked then row else prev)
        { row with status := status } always
      apply performs_writes rfl hrow _ hafter.2
      intro q hq
      rw [hafter.1] at hq
      cases hq
  | readParent parent issue =>
    simp only [perform]
    cases hrow : getIssue rows parent with
    | none => exact performs_stops rfl rfl
    | some row =>
      dsimp only
      by_cases htakes : takesNotice catalog row = true
      · rw [if_pos htakes]
        exact performs_stops rfl rfl
      · rw [if_neg htakes]
        exact performs_stops rfl rfl
  | readChildren parent issue => exact performs_stops rfl rfl
  | batchLoad ids status locked completed =>
    cases ids with
    | nil => exact performs_stops rfl rfl
    | cons id ids =>
      simp only [perform]
      cases hrow : getIssue rows id with
      | none => exact performs_reads (fun _ hq => mem_cons_of_mem _ hq) rfl
      | some prev =>
        apply performs_loads hrow _ rfl
        intro q hq
        simpa [Call.targets, getIssue_id hrow] using hq
  | batchWrite prev ids status locked completed =>
    simp only [perform]
    cases hrow : getIssue rows prev.id with
    | none => exact performs_reads (fun _ hq => mem_cons_of_mem _ hq) rfl
    | some row => exact performs_writes rfl hrow (fun _ hq => mem_cons_of_mem _ hq) rfl
  | batchParent groups =>
    cases groups with
    | nil => exact performs_stops rfl rfl
    | cons g groups =>
      obtain ⟨parent, group⟩ := g
      simp only [perform]
      cases hrow : getIssue rows parent with
      | none => exact performs_stops rfl rfl
      | some row =>
        dsimp only
        by_cases htakes : takesNotice catalog row = true
        · rw [if_pos htakes]
          exact performs_stops rfl rfl
        · rw [if_neg htakes]
          exact performs_stops rfl rfl
  | batchChildren parent group groups | finished => exact performs_stops rfl rfl

theorem statement_performs (catalog : Catalog) (rows : Table) (call : Nat) (outcome : Outcome)
    (pc : Call) :
    Performs rows pc (statement catalog rows call outcome pc).1
      (statement catalog rows call outcome pc).2.1 := by
  cases outcome with
  | done => exact perform_performs catalog rows call pc
  | failed => exact performs_reads (targets_giveUp false pc).1 (targets_giveUp false pc).2
  | archived => exact performs_reads (targets_giveUp true pc).1 (targets_giveUp true pc).2

/-! ## Runs in which no child is reopened -/

/-- What is asked of a step: the requests are for other issues than the parent,
no write reopens one of its children, and once a request has written, it reads
and decides. -/
def Steady (catalog : Catalog) (p : Nat) (c : Cfg) : Action → Prop
  | .request r => p ∉ r.targets
  | .goOn call outcome => ∀ pc, c.state.calls.get? call = some pc →
      (pc.reading = true → outcome = .done) ∧
      (∀ prev status, pc.writing = some (prev, status) → outcome ≠ .archived ∧
        ∀ row, getIssue c.state.rows prev.id = some row → row.parentIssueID = some p →
          isTerminal catalog row = true →
            isTerminal catalog { row with status := status } = true)

/-- What holds around a parent along such a run. -/
structure Around (catalog : Catalog) (p : Nat) (s : State) : Prop where
  keyed : Rows.Keyed Issue.id s.rows
  parent : ∃ row, getIssue s.rows p = some row ∧ takesNotice catalog row = true
  staged : siblingsAreStaged (listChildIssues s.rows p) = true
  spared : ∀ call pc, s.calls.get? call = some pc → p ∉ pc.targets
  /-- A row that was terminal when it was loaded is terminal still. -/
  loaded : ∀ call pc prev status, s.calls.get? call = some pc → pc.writing = some (prev, status) →
    ∀ row, getIssue s.rows prev.id = some row → row.parentIssueID = some p →
      isTerminal catalog prev = true → isTerminal catalog row = true
  calls_lt : ∀ call pc, s.calls.get? call = some pc → call < s.nextCall

variable {catalog : Catalog} {p : Nat} {s : State}

/-- The calls after a request is taken up are the new one and the old ones. -/
theorem of_opened {opened pc : Call} {call : Nat} (hpc : (s.calls.set s.nextCall opened).get? call = some pc) :
    (call = s.nextCall ∧ pc = opened) ∨ s.calls.get? call = some pc := by
  rw [get?_set] at hpc
  by_cases hcall : call = s.nextCall
  · rw [if_pos hcall, Option.some.injEq] at hpc
    exact .inl ⟨hcall, hpc.symm⟩
  · rw [if_neg hcall] at hpc
    exact .inr hpc

theorem Around.request (h : Around catalog p s) {r : Request} (hr : p ∉ r.targets) :
    Around catalog p (step catalog s (.request r)).2 := by
  have htargets : r.call.targets = r.targets ∧ r.call.writing = none := by
    cases r with
    | update id status locked | batch ids status locked | advanceToDone id => exact ⟨rfl, rfl⟩
  refine ⟨h.keyed, h.parent, h.staged, ?_, ?_, ?_⟩
  · intro call pc hpc
    rcases of_opened hpc with ⟨_, rfl⟩ | hold
    · rw [htargets.1]
      exact hr
    · exact h.spared call pc hold
  · intro call pc prev status hpc hwriting
    rcases of_opened hpc with ⟨_, rfl⟩ | hold
    · rw [htargets.2] at hwriting
      cases hwriting
    · exact h.loaded call pc prev status hold hwriting
  · intro call pc hpc
    rcases of_opened hpc with ⟨rfl, _⟩ | hold
    · exact Nat.lt_succ_self _
    · exact Nat.lt_succ_of_lt (h.calls_lt call pc hold)

/-- A child that is terminal stays so when a row is written that is not reopened. -/
theorem terminal_rewrite {other : Issue} (hkeeps : isTerminal catalog row = true →
      isTerminal catalog { row with status := status } = true)
    (hsame : other.id = row.id → other = row) (h : isTerminal catalog other = true) :
    isTerminal catalog (rewrite row.id status other) = true := by
  unfold rewrite
  by_cases hid : other.id = row.id
  · rw [if_pos hid]
    rw [hsame hid] at h ⊢
    exact hkeeps h
  · rw [if_neg hid]
    exact h

variable {call : Nat}

theorem Around.goOn (h : Around catalog p s) (hpc : s.calls.get? call = some pc)
    (hperforms : Performs s.rows pc rows pc')
    (hkeeps : ∀ prev status row, pc.writing = some (prev, status) → getIssue s.rows prev.id = some row → row.parentIssueID = some p → isTerminal catalog row = true → isTerminal catalog { row with status := status } = true) :
    Around catalog p { s with rows := rows, calls := s.calls.set call pc' } := by
  have hcalls : ∀ call' pc'', (s.calls.set call pc').get? call' = some pc'' →
      (call' = call ∧ pc'' = pc') ∨ (call' ≠ call ∧ s.calls.get? call' = some pc'') := by
    intro call' pc'' hget
    rw [get?_set] at hget
    by_cases hcall : call' = call
    · rw [if_pos hcall, Option.some.injEq] at hget
      exact .inl ⟨hcall, hget.symm⟩
    · rw [if_neg hcall] at hget
      exact .inr ⟨hcall, hget⟩
  have hspared : ∀ call' pc'', (s.calls.set call pc').get? call' = some pc'' →
      p ∉ pc''.targets := by
    intro call' pc'' hget
    rcases hcalls call' pc'' hget with ⟨_, rfl⟩ | ⟨_, hold⟩
    · exact fun hmem => h.spared call pc hpc (hperforms.targets p hmem)
    · exact h.spared call' pc'' hold
  have hlt : ∀ call' pc'', (s.calls.set call pc').get? call' = some pc'' → call' < s.nextCall := by
    intro call' pc'' hget
    rcases hcalls call' pc'' hget with ⟨rfl, _⟩ | ⟨_, hold⟩
    · exact h.calls_lt _ pc hpc
    · exact h.calls_lt call' pc'' hold
  rcases hperforms.table with rfl | ⟨prev, status, row, hwriting, hrow, rfl⟩
  · refine ⟨h.keyed, h.parent, h.staged, hspared, ?_, hlt⟩
    intro call' pc'' prev status hget hwriting row hrow hparent hterminal
    rcases hcalls call' pc'' hget with ⟨_, rfl⟩ | ⟨_, hold⟩
    · have hloaded := (hperforms.loaded prev status hwriting).1
      rw [show getIssue s.rows prev.id = some row from hrow, Option.some.injEq] at hloaded
      exact hloaded ▸ hterminal
    · exact h.loaded call' pc'' prev status hold hwriting row hrow hparent hterminal
  · have hid : row.id = prev.id := getIssue_id hrow
    have hne : p ≠ row.id := by
      intro heq
      apply h.spared call pc hpc
      rw [heq, hid]
      cases pc with
      | write prev' status' locked always =>
        simp only [Call.writing, Option.some.injEq, Prod.mk.injEq] at hwriting
        simp [Call.targets, hwriting.1]
      | batchWrite prev' ids status' locked completed =>
        simp only [Call.writing, Option.some.injEq, Prod.mk.injEq] at hwriting
        simp [Call.targets, hwriting.1]
      | _ => cases hwriting
    refine ⟨keyed_writeStatus h.keyed _ _, ?_, ?_, hspared, ?_, hlt⟩
    · obtain ⟨parent, hparent, htakes⟩ := h.parent
      refine ⟨parent, ?_, htakes⟩
      rw [getIssue_writeStatus, hparent, Option.map_some, rewrite, if_neg]
      rw [getIssue_id hparent]
      exact hne
    · show siblingsAreStaged (listChildIssues (writeStatus s.rows row.id status) p) = true
      rw [staged_writeStatus]
      exact h.staged
    · intro call' pc'' prev' status' hget hwriting' row' hrow' hparent hterminal
      have hget' : (getIssue s.rows prev'.id).map (rewrite row.id status) = some row' := by
        rw [← getIssue_writeStatus]
        exact hrow'
      obtain ⟨old, hold', rfl⟩ := Option.map_eq_some_iff.mp hget'
      rw [rewrite_parent] at hparent
      have hsame : old.id = row.id → old = row := fun heq =>
        h.keyed.eq_of_key (getIssue_mem hold') (getIssue_mem hrow) heq
      have hterminal' : isTerminal catalog old = true := by
        rcases hcalls call' pc'' hget with ⟨_, rfl⟩ | ⟨_, hcall⟩
        · have hloaded := (hperforms.loaded prev' status' hwriting').1
          rw [hold', Option.some.injEq] at hloaded
          exact hloaded ▸ hterminal
        · exact h.loaded call' pc'' prev' status' hcall hwriting' old hold' hparent hterminal
      by_cases heq : old.id = row.id
      · have hchild : row.parentIssueID = some p := hsame heq ▸ hparent
        exact terminal_rewrite (hkeeps prev status row hwriting hrow hchild) hsame hterminal'
      · rw [rewrite, if_neg heq]
        exact hterminal'

theorem Around.step (h : Around catalog p c.state) (hsteady : Steady catalog p c action) :
    Around catalog p (step catalog c.state action).2 := by
  cases action with
  | request r => exact h.request hsteady
  | goOn call outcome =>
    simp only [step]
    cases hpc : c.state.calls.get? call with
    | none => exact h
    | some pc =>
      apply h.goOn hpc (statement_performs catalog c.state.rows call outcome pc)
      intro prev status row hwriting hrow
      exact ((hsteady pc hpc).2 prev status hwriting).2 row hrow

/-! ## The last child of a stage -/

/-- All children of `p` up to stage `s` are terminal. -/
def Closed (catalog : Catalog) (p : Nat) (s : Int) (rows : Table) : Prop :=
  ClosedUpTo (isTerminal catalog) (listChildIssues rows p) s

theorem mem_listChildIssues {p : Nat} :
    row ∈ listChildIssues rows p ↔ row ∈ rows ∧ row.parentIssueID = some p := by
  rw [listChildIssues, mem_filter, decide_eq_true_eq]

theorem closed_writeStatus (hkeyed : Rows.Keyed Issue.id rows) (hrow : row ∈ rows)
    (hkeeps : row.parentIssueID = some p → isTerminal catalog row = true →
      isTerminal catalog { row with status := status } = true) (h : Closed catalog p t rows) : Closed catalog p t (writeStatus rows row.id status) := by
  intro c hc t' ht' hle
  rw [listChildIssues_writeStatus] at hc
  obtain ⟨old, hold, rfl⟩ := mem_map.mp hc
  have hold' := mem_listChildIssues.mp hold
  rw [rewrite_stage] at ht'
  have hsame : old.id = row.id → old = row := hkeyed.eq_of_key hold'.1 hrow
  have hterminal := h old hold t' ht' hle
  by_cases hid : old.id = row.id
  · exact terminal_rewrite (hkeeps (hsame hid ▸ hold'.2)) hsame hterminal
  · rw [rewrite, if_neg hid]
    exact hterminal

theorem closed_step (h : Around catalog p c.state) (hsteady : Steady catalog p c action)
    (hclosed : Closed catalog p t c.state.rows) :
    Closed catalog p t (step catalog c.state action).2.rows := by
  cases action with
  | request r => exact hclosed
  | goOn call outcome =>
    simp only [step]
    cases hpc : c.state.calls.get? call with
    | none => exact hclosed
    | some pc =>
      show Closed catalog p t (statement catalog c.state.rows call outcome pc).1
      rcases (statement_performs catalog c.state.rows call outcome pc).table with
        heq | ⟨prev, status, row, hwriting, hrow, heq⟩
      · rw [heq]
        exact hclosed
      · rw [heq]
        apply closed_writeStatus h.keyed (getIssue_mem hrow) _ hclosed
        exact ((hsteady pc hpc).2 prev status hwriting).2 row hrow

/-- The request has a child of stage `t` of the parent to decide about. -/
def InHand (p : Nat) (t : Int) : Call → Prop
  | .readParent parent issue => parent = p ∧ issue.stage = some t
  | .readChildren parent issue => parent.id = p ∧ issue.stage = some t
  | .batchLoad _ _ _ completed => ∃ x ∈ completed, x.parentIssueID = some p ∧ x.stage = some t
  | .batchWrite _ _ _ _ completed => ∃ x ∈ completed, x.parentIssueID = some p ∧ x.stage = some t
  | .batchParent groups => ∃ g ∈ groups, g.1 = p ∧ ∃ x ∈ g.2, x.stage = some t
  | .batchChildren parent group groups => (parent.id = p ∧ ∃ x ∈ group, x.stage = some t) ∨
      ∃ g ∈ groups, g.1 = p ∧ ∃ x ∈ g.2, x.stage = some t
  | _ => False

variable {issue : Issue}

theorem completes_of (hprev : isTerminal catalog prev = false)
    (hissue : isTerminal catalog issue = true) :
    completes catalog prev issue = true ∧ (prev.status != issue.status) = true := by
  refine ⟨by rw [completes, hprev, hissue]; rfl, ?_⟩
  rw [bne_iff_ne]
  intro heq
  rw [isTerminal, heq] at hprev
  rw [isTerminal, hprev] at hissue
  cases hissue

theorem afterWrite_completes {always : Bool} {parent : Nat}
    (hparent : issue.parentIssueID = some parent)
    (hcompletes : completes catalog prev issue = true)
    (hchanged : (prev.status != issue.status) = true) :
    afterWrite catalog prev issue always = .readParent parent issue := by
  rw [afterWrite, hchanged, Bool.or_true, if_pos rfl, hparent]
  dsimp only
  rw [if_pos hcompletes]

/-- Whoever writes the last open child has it in hand. -/
theorem inHand_of_write (call : Nat) (hwriting : pc.writing = some (prev, status))
    (hrow : getIssue rows prev.id = some row) (hparent : row.parentIssueID = some p)
    (hstage : row.stage = some t) (hopen : isTerminal catalog row = false)
    (hloaded : isTerminal catalog prev = true → isTerminal catalog row = true)
    (hnow : isTerminal catalog { row with status := status } = true) :
    InHand p t (perform catalog rows call pc).2.1 := by
  have hbefore : ∀ locked : Bool, isTerminal catalog (if locked then row else prev) = false := by
    intro locked
    cases locked with
    | true => exact hopen
    | false =>
      cases hprev : isTerminal catalog prev with
      | false => exact hprev
      | true =>
        rw [hloaded hprev] at hopen
        cases hopen
  cases pc with
  | write prev' status' locked always =>
    simp only [Call.writing, Option.some.injEq, Prod.mk.injEq] at hwriting
    obtain ⟨rfl, rfl⟩ := hwriting
    have hcompletes := completes_of (hbefore locked) hnow
    simp only [perform, hrow]
    have hafter : afterWrite catalog (if locked then row else prev')
        { row with status := status' } always = .readParent p { row with status := status' } :=
      afterWrite_completes hparent hcompletes.1 hcompletes.2
    rw [hafter]
    exact ⟨rfl, hstage⟩
  | batchWrite prev' ids status' locked completed =>
    simp only [Call.writing, Option.some.injEq, Prod.mk.injEq] at hwriting
    obtain ⟨rfl, rfl⟩ := hwriting
    have hcompletes := completes_of (hbefore locked) hnow
    simp only [perform, hrow]
    have hcond : ((if locked then row else prev').status != status' &&
        row.parentIssueID.isSome && completes catalog (if locked then row else prev')
          { row with status := status' }) = true := by
      rw [hcompletes.1, hparent]
      simpa using hcompletes.2
    rw [collect, if_pos hcond]
    exact ⟨_, mem_append_right _ (mem_singleton_self _), hparent, hstage⟩
  | _ => cases hwriting

/-- The decision that announces the stage is in the history. -/
def Announced (catalog : Catalog) (p : Nat) (s t : Int) (call : Nat)
    (past : List (Action × Option Decision)) : Prop :=
  ∃ e ∈ past, ∃ d, e.2 = some d ∧ d.call = call ∧ d.parent = p ∧
    ClosedUpTo (isTerminal catalog) d.children s ∧ ∃ n, d.result = some n ∧ Announces s t n

theorem mem_group {completed : List Issue} {x : Issue} (hx : x ∈ completed)
    (hparent : x.parentIssueID = some p) :
    ∃ g ∈ (groupByParent completed).entries, g.1 = p ∧ x ∈ g.2 := by
  have hmem : x ∈ groupOf p completed := by
    rw [groupOf, mem_filter]
    exact ⟨hx, by simp [hparent]⟩
  have hne : groupOf p completed ≠ [] := ne_nil_of_mem hmem
  have hget : (groupByParent completed).get? p = some (groupOf p completed) := by
    rw [get?_groupByParent, if_neg hne]
  exact ⟨_, OrderedMap.get?_eq_some_iff.mp hget, rfl, hmem⟩

variable {outcome : Outcome}

/-- The next statement of the request keeps the child in hand, or announces. -/
theorem inHand_statement {s' : Int} (h : Around catalog p s)
    (hclosed : Closed catalog p s' s.rows) (hle : t ≤ s') (call : Nat) (hhand : InHand p t pc)
    (hreads : pc.reading = true → outcome = .done)
    (hwrites : ∀ prev status, pc.writing = some (prev, status) → outcome ≠ .archived) :
    InHand p t (statement catalog s.rows call outcome pc).2.1 ∨
      ∃ n, (statement catalog s.rows call outcome pc).2.2 =
        some ⟨call, p, listChildIssues s.rows p, some n⟩ ∧ Announces s' t n := by
  obtain ⟨prow, hprow, htakes⟩ := h.parent
  have hpid := getIssue_id hprow
  cases pc with
  | load id status locked always | write prev status locked always | finished => exact False.elim hhand
  | readParent parent issue =>
    obtain ⟨rfl, hstage⟩ := hhand
    rw [hreads rfl]
    left
    simp only [statement, perform, hprow, htakes, if_true]
    exact ⟨hpid, hstage⟩
  | readChildren parent issue =>
    obtain ⟨hparent, hstage⟩ := hhand
    rw [hreads rfl]
    right
    obtain ⟨n, hn, hannounces⟩ := decideSingle_announces parent h.staged hstage hle
      hclosed
    refine ⟨n, ?_, hannounces⟩
    simp only [statement, perform, hparent, hn]
  | batchLoad ids status locked completed =>
    left
    cases ids with
    | nil =>
      obtain ⟨x, hx, hparent, hstage⟩ := hhand
      obtain ⟨g, hg, hgp, hxg⟩ := mem_group hx hparent
      have hafter : InHand p t (afterBatch completed) := ⟨g, hg, hgp, x, hxg, hstage⟩
      cases outcome with
      | done | failed | archived => exact hafter
    | cons id ids =>
      cases outcome with
      | done =>
        simp only [statement, perform]
        cases getIssue s.rows id with
        | none | some prev => exact hhand
      | failed | archived => exact hhand
  | batchWrite prev ids status locked completed =>
    left
    cases outcome with
    | done =>
      simp only [statement, perform]
      cases getIssue s.rows prev.id with
      | none => exact hhand
      | some row =>
        obtain ⟨x, hx, hrest⟩ := hhand
        refine ⟨x, ?_, hrest⟩
        rw [collect]
        by_cases hcond : ((if locked then row else prev).status != status &&
            row.parentIssueID.isSome && completes catalog (if locked then row else prev)
              { row with status := status }) = true
        · rw [if_pos hcond]
          exact mem_append_left _ hx
        · rw [if_neg hcond]
          exact hx
    | failed => exact hhand
    | archived => exact absurd rfl (hwrites prev status rfl)
  | batchParent groups =>
    rw [hreads rfl]
    left
    obtain ⟨g, hg, hgp, hx⟩ := hhand
    cases groups with
    | nil => cases hg
    | cons g' groups =>
      obtain ⟨parent, group⟩ := g'
      simp only [statement, perform]
      rcases mem_cons.mp hg with rfl | hg
      · subst hgp
        simp only [hprow, htakes, if_true]
        exact .inl ⟨hpid, hx⟩
      · cases getIssue s.rows parent with
        | none => exact ⟨g, hg, hgp, hx⟩
        | some row =>
          dsimp only
          by_cases htakes' : takesNotice catalog row = true
          · rw [if_pos htakes']
            exact .inr ⟨g, hg, hgp, hx⟩
          · rw [if_neg htakes']
            exact ⟨g, hg, hgp, hx⟩
  | batchChildren parent group groups =>
    rw [hreads rfl]
    rcases hhand with ⟨hparent, x, hx, hstage⟩ | hrest
    · right
      obtain ⟨n, hn, hannounces⟩ := decideGroup_announces parent h.staged hx hstage hle
        hclosed
      refine ⟨n, ?_, hannounces⟩
      simp only [statement, perform, hparent, hn]
    · exact .inl hrest

/-- After the write of the last open child, on the way to the announcement. -/
structure Underway (catalog : Catalog) (p : Nat) (s t : Int) (call : Nat) (c : Cfg) : Prop where
  around : Around catalog p c.state
  closed : Closed catalog p s c.state.rows
  turn : Announced catalog p s t call c.past ∨
    ∃ pc, c.state.calls.get? call = some pc ∧ InHand p t pc

theorem Underway.step {s : Int} (h : Underway catalog p s t call c) (hle : t ≤ s)
    (hsteady : Steady catalog p c action) :
    Underway catalog p s t call (advance (step catalog) c action) := by
  refine ⟨h.around.step hsteady, closed_step h.around hsteady h.closed, ?_⟩
  rcases h.turn with ⟨e, he, hrest⟩ | ⟨pc, hpc, hhand⟩
  · exact .inl ⟨e, mem_append_left _ he, hrest⟩
  · cases action with
    | request r =>
      right
      refine ⟨pc, ?_, hhand⟩
      have hne := Nat.ne_of_lt (h.around.calls_lt call pc hpc)
      show (c.state.calls.set c.state.nextCall r.call).get? call = some pc
      rw [get?_set_ne _ _ hne]
      exact hpc
    | goOn call' outcome =>
      by_cases hcall : call' = call
      · subst hcall
        have hstep : step catalog c.state (.goOn call' outcome) =
            ((statement catalog c.state.rows call' outcome pc).2.2,
              { c.state with
                rows := (statement catalog c.state.rows call' outcome pc).1
                calls := c.state.calls.set call'
                  (statement catalog c.state.rows call' outcome pc).2.1 }) := by
          simp only [step, hpc]
        have hnext := inHand_statement h.around h.closed hle call' hhand
          (hsteady pc hpc).1
          (fun prev status hwriting => ((hsteady pc hpc).2 prev status hwriting).1)
        rcases hnext with hhand' | ⟨n, hdecision, hannounces⟩
        · right
          refine ⟨_, ?_, hhand'⟩
          show (step catalog c.state (.goOn call' outcome)).2.calls.get? call' = _
          rw [hstep]
          exact get?_set_self _ _ _
        · left
          refine ⟨_, mem_append_right _ (mem_singleton_self _),
            ⟨call', p, listChildIssues c.state.rows p, some n⟩, ?_, rfl, rfl, h.closed, n, rfl,
            hannounces⟩
          rw [hstep]
          exact hdecision
      · right
        refine ⟨pc, ?_, hhand⟩
        show (step catalog c.state (.goOn call' outcome)).2.calls.get? call = some pc
        simp only [step]
        cases c.state.calls.get? call' with
        | none => exact hpc
        | some pc' =>
          show (c.state.calls.set call' _).get? call = some pc
          rw [get?_set_ne _ _ (Ne.symm hcall)]
          exact hpc

/-- The step in which the last open child of the stages up to `s` is written,
by the request `call`; the child is of stage `t`. -/
def Closes (catalog : Catalog) (p : Nat) (s t : Int) (call : Nat) (c : Cfg) (action : Action) :
    Prop :=
  action = .goOn call .done ∧ ¬ Closed catalog p s c.state.rows ∧
    Closed catalog p s (ChildDone.step catalog c.state action).2.rows ∧
    ∃ x ∈ listChildIssues c.state.rows p, x.stage = some t ∧ t ≤ s ∧
      isTerminal catalog x = false

theorem closing_step {s : Int} (h : Around catalog p c.state)
    (hopen : ¬ Closed catalog p s c.state.rows)
    (hclosed : Closed catalog p s (step catalog c.state action).2.rows) :
    ∃ call t, Closes catalog p s t call c action ∧
      ∃ pc, (step catalog c.state action).2.calls.get? call = some pc ∧
        InHand p t pc := by
  cases action with
  | request r => exact absurd hclosed hopen
  | goOn call outcome =>
    have hbefore := hclosed
    simp only [step] at hclosed ⊢
    cases hpc : c.state.calls.get? call with
    | none =>
      rw [hpc] at hclosed
      exact absurd hclosed hopen
    | some pc =>
      rw [hpc] at hclosed
      have hafter : Closed catalog p s (statement catalog c.state.rows call outcome pc).1 :=
        hclosed
      rcases (statement_performs catalog c.state.rows call outcome pc).table with
        heq | ⟨prev, status, row, hwriting, hrow, heq⟩
      · rw [heq] at hafter
        exact absurd hafter hopen
      · cases outcome with
        | failed | archived => exact absurd hafter hopen
        | done =>
          rw [heq] at hafter
          -- Only the written row has changed, so it is the one that was open.
          have hlast : ∃ t, row.parentIssueID = some p ∧ row.stage = some t ∧ t ≤ s ∧
              isTerminal catalog row = false ∧
              isTerminal catalog { row with status := status } = true := by
            by_contra hnone
            apply hopen
            intro x hx t' ht' hle
            have hx' := mem_listChildIssues.mp hx
            have hwritten := hafter (rewrite row.id status x)
              (by
                rw [listChildIssues_writeStatus]
                exact mem_map_of_mem hx) t'
              (by rw [rewrite_stage]; exact ht') hle
            by_cases hid : x.id = row.id
            · have hxrow := h.keyed.eq_of_key hx'.1 (getIssue_mem hrow) hid
              subst hxrow
              rw [rewrite, if_pos rfl] at hwritten
              cases hterminal : isTerminal catalog x with
              | true => rfl
              | false => exact absurd ⟨t', hx'.2, ht', hle, hterminal, hwritten⟩ hnone
            · rwa [rewrite, if_neg hid] at hwritten
          obtain ⟨t, hparent, hstage, hle, hopenRow, hnow⟩ := hlast
          have hloaded := h.loaded call pc prev status hpc hwriting row hrow hparent
          refine ⟨call, t, ⟨rfl, hopen, hbefore, row,
            mem_listChildIssues.mpr ⟨getIssue_mem hrow, hparent⟩, hstage, hle, hopenRow⟩, ?_⟩
          have hhand := inHand_of_write call hwriting hrow hparent hstage hopenRow
            hloaded hnow
          exact ⟨_, get?_set_self _ _ _, hhand⟩

/-! ## One decision for a parent -/

/-- How often a request has decided about a parent. -/
def told (past : List (Action × Option Decision)) (call parent : Nat) : Nat :=
  past.countP fun e =>
    match e.2 with
    | none => false
    | some d => d.call = call && d.parent = parent

/-- How often it may still do so. -/
def Call.mayTell (parent : Nat) : Call → Nat
  | .batchParent groups => (groups.map Prod.fst).count parent
  | .batchChildren row _ groups =>
    (if row.id = parent then 1 else 0) + (groups.map Prod.fst).count parent
  | .readChildren row _ => if row.id = parent then 1 else 0
  | .finished => 0
  | _ => 1

/-- What a request decided in one step. -/
def tells (decision : Option Decision) (call parent : Nat) : Nat :=
  match decision with
  | none => 0
  | some d => if d.call = call ∧ d.parent = parent then 1 else 0

theorem told_append (past : List (Action × Option Decision)) (action : Action)
    (decision : Option Decision) (call parent : Nat) :
    told (past ++ [(action, decision)]) call parent =
      told past call parent + tells decision call parent := by
  rw [told, countP_append, told, countP_singleton]
  congr 1
  cases decision with
  | none => rfl
  | some d =>
    by_cases h : d.call = call ∧ d.parent = parent
    · simp [tells, h]
    · simp only [tells, if_neg h]
      rw [if_neg]
      simpa using h

theorem mayTell_afterWrite (catalog : Catalog) (prev issue : Issue) (always : Bool) (q : Nat) :
    (afterWrite catalog prev issue always).mayTell q ≤ 1 := by
  unfold afterWrite
  by_cases hchanged : (always || prev.status != issue.status) = true
  · rw [if_pos hchanged]
    cases issue.parentIssueID with
    | none => exact Nat.zero_le 1
    | some parent =>
      dsimp only
      by_cases hcompletes : completes catalog prev issue = true
      · rw [if_pos hcompletes]
        exact Nat.le_refl 1
      · rw [if_neg hcompletes]
        exact Nat.zero_le 1
  · rw [if_neg hchanged]
    exact Nat.zero_le 1

theorem mayTell_afterBatch (completed : List Issue) (q : Nat) :
    (afterBatch completed).mayTell q ≤ 1 :=
  nodup_iff_count_le_one.mp (groupByParent completed).nodup q

theorem mayTell_giveUp (archived : Bool) (pc : Call) (q : Nat) :
    (giveUp archived pc).mayTell q ≤ pc.mayTell q := by
  cases pc with
  | batchLoad ids status locked completed =>
    cases ids with
    | nil => exact mayTell_afterBatch completed q
    | cons id ids => exact Nat.le_refl 1
  | batchWrite prev ids status locked completed =>
    cases archived with
    | true => exact Nat.zero_le 1
    | false => exact Nat.le_refl 1
  | batchParent groups =>
    cases groups with
    | nil => exact Nat.zero_le _
    | cons g groups =>
      show (groups.map Prod.fst).count q ≤ ((g :: groups).map Prod.fst).count q
      rw [map_cons]
      exact count_le_count_cons
  | batchChildren parent group groups => exact Nat.le_add_left _ _
  | load id status locked always | write prev status locked always
  | readParent parent issue | readChildren parent issue | finished => exact Nat.zero_le _

theorem mayTell_perform (catalog : Catalog) (rows : Table) (call : Nat) (pc : Call) (q : Nat) :
    tells (perform catalog rows call pc).2.2 call q + (perform catalog rows call pc).2.1.mayTell q ≤
      pc.mayTell q := by
  cases pc with
  | load id status locked always =>
    simp only [perform]
    cases getIssue rows id with
    | none => exact Nat.zero_le 1
    | some prev => exact Nat.le_refl 1
  | write prev status locked always =>
    simp only [perform]
    cases getIssue rows prev.id with
    | none => exact Nat.zero_le 1
    | some row =>
      show 0 + _ ≤ 1
      rw [Nat.zero_add]
      exact mayTell_afterWrite catalog _ _ always q
  | readParent parent issue =>
    simp only [perform]
    cases getIssue rows parent with
    | none => exact Nat.zero_le 1
    | some row =>
      dsimp only
      by_cases htakes : takesNotice catalog row = true
      · rw [if_pos htakes]
        show 0 + (if row.id = q then 1 else 0) ≤ 1
        by_cases hq : row.id = q
        · rw [if_pos hq]
        · rw [if_neg hq]
          exact Nat.zero_le 1
      · rw [if_neg htakes]
        exact Nat.zero_le 1
  | readChildren parent issue =>
    show (if call = call ∧ parent.id = q then 1 else 0) + 0 ≤ if parent.id = q then 1 else 0
    simp
  | batchLoad ids status locked completed =>
    cases ids with
    | nil =>
      show 0 + (afterBatch completed).mayTell q ≤ 1
      rw [Nat.zero_add]
      exact mayTell_afterBatch completed q
    | cons id ids =>
      simp only [perform]
      cases getIssue rows id with
      | none | some prev => exact Nat.le_refl 1
  | batchWrite prev ids status locked completed =>
    simp only [perform]
    cases getIssue rows prev.id with
    | none | some row => exact Nat.le_refl 1
  | batchParent groups =>
    cases groups with
    | nil => exact Nat.zero_le _
    | cons g groups =>
      obtain ⟨parent, group⟩ := g
      have hskip : 0 + (groups.map Prod.fst).count q ≤
          (((parent, group) :: groups).map Prod.fst).count q := by
        rw [Nat.zero_add, map_cons]
        exact count_le_count_cons
      simp only [perform]
      cases hrow : getIssue rows parent with
      | none => exact hskip
      | some row =>
        have hid := getIssue_id hrow
        dsimp only
        by_cases htakes : takesNotice catalog row = true
        · rw [if_pos htakes]
          show 0 + ((if row.id = q then 1 else 0) + (groups.map Prod.fst).count q) ≤
            (((parent, group) :: groups).map Prod.fst).count q
          rw [map_cons, count_cons, hid]
          simp only [beq_iff_eq]
          omega
        · rw [if_neg htakes]
          exact hskip
  | batchChildren parent group groups =>
    show (if call = call ∧ parent.id = q then 1 else 0) + (groups.map Prod.fst).count q ≤
      (if parent.id = q then 1 else 0) + (groups.map Prod.fst).count q
    simp
  | finished => exact Nat.zero_le _

theorem mayTell_statement (catalog : Catalog) (rows : Table) (call : Nat) (outcome : Outcome)
    (pc : Call) (q : Nat) :
    tells (statement catalog rows call outcome pc).2.2 call q +
      (statement catalog rows call outcome pc).2.1.mayTell q ≤ pc.mayTell q := by
  have hfailed : ∀ archived : Bool, 0 + (giveUp archived pc).mayTell q ≤ pc.mayTell q := by
    intro archived
    rw [Nat.zero_add]
    exact mayTell_giveUp archived pc q
  cases outcome with
  | done => exact mayTell_perform catalog rows call pc q
  | failed => exact hfailed false
  | archived => exact hfailed true

/-- What a statement decides, it decides for its own request, on the children
it reads then. -/
theorem statement_decision {catalog : Catalog} {d : Decision}
    (h : (statement catalog rows call outcome pc).2.2 = some d) :
    d.call = call ∧ d.children = listChildIssues rows d.parent ∧
      ∀ n, d.result = some n → n.Closed (isTerminal catalog) d.children := by
  cases outcome with
  | failed | archived => cases h
  | done =>
    cases pc with
    | readChildren parent issue =>
      cases h
      exact ⟨rfl, rfl, fun n hn => decideSingle_closed hn⟩
    | batchChildren parent group groups =>
      cases h
      exact ⟨rfl, rfl, fun n hn => decideGroup_closed hn⟩
    | load id status locked always =>
      simp only [statement, perform] at h
      cases hrow : getIssue rows id with
      | none | some row => simp [hrow] at h
    | write prev status locked always =>
      simp only [statement, perform] at h
      cases hrow : getIssue rows prev.id with
      | none | some row => simp [hrow] at h
    | readParent parent issue =>
      simp only [statement, perform] at h
      cases hrow : getIssue rows parent with
      | none | some row => simp [hrow] at h
    | batchLoad ids status locked completed =>
      cases ids with
      | nil => cases h
      | cons id ids =>
        simp only [statement, perform] at h
        cases hrow : getIssue rows id with
        | none | some row => simp [hrow] at h
    | batchWrite prev ids status locked completed =>
      simp only [statement, perform] at h
      cases hrow : getIssue rows prev.id with
      | none | some row => simp [hrow] at h
    | batchParent groups =>
      cases groups with
      | nil => cases h
      | cons g groups =>
        simp only [statement, perform] at h
        cases hrow : getIssue rows g.1 with
        | none | some row => simp [hrow] at h
    | finished => cases h

/-- What holds in every run. -/
structure Sound (past : List (Action × Option Decision)) (s : State) : Prop where
  keyed : Rows.Keyed Issue.id s.rows
  calls_lt : ∀ call pc, s.calls.get? call = some pc → call < s.nextCall
  unborn : ∀ call q, s.calls.get? call = none → told past call q = 0
  once : ∀ call pc q, s.calls.get? call = some pc → told past call q + pc.mayTell q ≤ 1

variable {past : List (Action × Option Decision)}

theorem Sound.step (h : Sound past s) (action : Action) :
    Sound (past ++ [(action, (ChildDone.step catalog s action).1)])
      (ChildDone.step catalog s action).2 := by
  cases action with
  | request r =>
    have hone : ∀ q, r.call.mayTell q = 1 := by
      intro q
      cases r with
      | update id status locked | batch ids status locked | advanceToDone id => rfl
    have hquiet : ∀ call q, told (past ++ [(Action.request r, none)]) call q =
        told past call q := fun call q => told_append past _ none call q
    refine ⟨h.keyed, ?_, ?_, ?_⟩
    · intro call pc hpc
      rcases of_opened hpc with ⟨rfl, _⟩ | hold
      · exact Nat.lt_succ_self _
      · exact Nat.lt_succ_of_lt (h.calls_lt call pc hold)
    · intro call q hcall
      rw [show (ChildDone.step catalog s (.request r)).1 = none from rfl, hquiet]
      apply h.unborn call q
      have hset : (s.calls.set s.nextCall r.call).get? call = none := hcall
      rw [get?_set] at hset
      by_cases hnext : call = s.nextCall
      · rw [if_pos hnext] at hset
        cases hset
      · rwa [if_neg hnext] at hset
    · intro call pc q hpc
      rw [show (ChildDone.step catalog s (.request r)).1 = none from rfl, hquiet]
      rcases of_opened hpc with ⟨rfl, rfl⟩ | hold
      · have hfree : s.calls.get? s.nextCall = none := by
          cases hget : s.calls.get? s.nextCall with
          | none => rfl
          | some pc => exact absurd (h.calls_lt _ pc hget) (Nat.lt_irrefl _)
        rw [h.unborn _ q hfree, hone]
      · exact h.once call pc q hold
  | goOn call outcome =>
    simp only [ChildDone.step]
    cases hpc : s.calls.get? call with
    | none =>
      refine ⟨h.keyed, h.calls_lt, ?_, ?_⟩
      · intro call' q hcall
        rw [told_append]
        exact h.unborn call' q hcall
      · intro call' pc q hpc'
        rw [told_append]
        exact h.once call' pc q hpc'
    | some pc =>
      have htells : ∀ call' q, call' ≠ call →
          tells (statement catalog s.rows call outcome pc).2.2 call' q = 0 := by
        intro call' q hne
        cases hd : (statement catalog s.rows call outcome pc).2.2 with
        | none => rfl
        | some d =>
          rw [tells, if_neg]
          rintro ⟨hcall, _⟩
          rw [(statement_decision hd).1] at hcall
          exact hne hcall.symm
      have hmay := mayTell_statement catalog s.rows call outcome pc
      have htable := (statement_performs catalog s.rows call outcome pc).table
      show Sound (past ++ [(_, (statement catalog s.rows call outcome pc).2.2)])
        ⟨(statement catalog s.rows call outcome pc).1,
          s.calls.set call (statement catalog s.rows call outcome pc).2.1, s.nextCall⟩
      generalize statement catalog s.rows call outcome pc = taken at htells hmay htable ⊢
      obtain ⟨rows', pc', decision⟩ := taken
      dsimp only at htells hmay htable ⊢
      apply Sound.mk
      · show Rows.Keyed Issue.id rows'
        rcases htable with rfl | ⟨prev, status, row, _, _, rfl⟩
        · exact h.keyed
        · exact keyed_writeStatus h.keyed _ _
      · intro call' pc'' hget
        rw [get?_set] at hget
        by_cases hcall : call' = call
        · exact hcall ▸ h.calls_lt call pc hpc
        · rw [if_neg hcall] at hget
          exact h.calls_lt call' pc'' hget
      · intro call' q hnone
        rw [get?_set] at hnone
        by_cases hcall : call' = call
        · rw [if_pos hcall] at hnone
          cases hnone
        · rw [if_neg hcall] at hnone
          rw [told_append, h.unborn call' q hnone, htells call' q hcall]
      · intro call' pc'' q hget
        rw [get?_set] at hget
        rw [told_append]
        by_cases hcall : call' = call
        · rw [if_pos hcall, Option.some.injEq] at hget
          rw [hcall, ← hget]
          have hstatement := hmay q
          have honce := h.once call pc q hpc
          omega
        · rw [if_neg hcall] at hget
          rw [htells call' q hcall]
          exact h.once call' pc'' q hget

theorem sound_of_reach {allowed : Cfg → Action → Prop} (hkeyed : Rows.Keyed Issue.id rows)
    (h : Reach (step catalog) allowed (start (init rows)) c) :
    Sound c.past c.state := by
  apply Reach.invariant (I := fun c => Sound c.past c.state) _ h
  · exact ⟨hkeyed, nofun, fun _ _ _ => rfl, nofun⟩
  · intro d action _ hd
    exact hd.step action

theorem Sound.told_le (h : Sound past s) (call q : Nat) :
    told past call q ≤ 1 := by
  cases hpc : s.calls.get? call with
  | none =>
    rw [h.unborn call q hpc]
    exact Nat.zero_le 1
  | some pc => exact Nat.le_trans (Nat.le_add_right _ _) (h.once call pc q hpc)

end ClawMessenger.Ports.ChildDone
