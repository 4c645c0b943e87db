import ClawMessenger.Ports.ChildDoneRuns

/-!
# The stage barrier

What the notifications tell about the stages of a parent, whatever the order in
which the updates are written and read.
-/

namespace ClawMessenger.Ports.ChildDone

open Verified Verified.Machine

open ChildDone (step)

variable {catalog : Catalog}

/-- The decision of a step that made one. -/
theorem decision_step {c : Cfg} {action : Action} {d : Decision}
    (h : (step catalog c.state action).1 = some d) :
    d.children = listChildIssues c.state.rows d.parent ∧
      ∀ n, d.result = some n → n.Closed (isTerminal catalog) d.children := by
  cases action with
  | request r => cases h
  | goOn call outcome =>
    simp only [step] at h
    cases hpc : c.state.calls.get? call with
    | none =>
      rw [hpc] at h
      cases h
    | some pc =>
      rw [hpc] at h
      have hstatement : (statement catalog c.state.rows call outcome pc).2.2 = some d := h
      exact (statement_decision hstatement).2

/-! ## Deciding the conditions of a run -/

instance decidableSteady (catalog : Catalog) (p : Nat) (c : Cfg) :
    (action : Action) → Decidable (Steady catalog p c action)
  | .request r => inferInstanceAs (Decidable (p ∉ r.targets))
  | .goOn call outcome =>
    decidable_of_iff
      (∀ pc ∈ c.state.calls.get? call, (pc.reading = true → outcome = .done) ∧
        ∀ w ∈ pc.writing, outcome ≠ .archived ∧
          ∀ row ∈ getIssue c.state.rows w.1.id, row.parentIssueID = some p →
            isTerminal catalog row = true → isTerminal catalog { row with status := w.2 } = true)
      ⟨fun h pc hpc => ⟨(h pc hpc).1, fun prev status hw => (h pc hpc).2 (prev, status) hw⟩,
        fun h pc hpc => ⟨(h pc hpc).1, fun w hw => (h pc hpc).2 w.1 w.2 hw⟩⟩

instance decidableClosed (catalog : Catalog) (p : Nat) (s : Int) (rows : Table) :
    Decidable (Closed catalog p s rows) :=
  inferInstanceAs (Decidable (∀ c ∈ listChildIssues rows p, ∀ t ∈ c.stage, t ≤ s →
    isTerminal catalog c = true))

instance decidableFinished (s : State) : Decidable (Finished s) :=
  decidable_of_iff (∀ e ∈ s.calls.entries, e.2 = .finished)
    ⟨fun h call c hget => h (call, c) (OrderedMap.get?_eq_some_iff.mp hget),
      fun h e he => h e.1 e.2 (OrderedMap.get?_eq_some_iff.mpr he)⟩

/-! ## What every run tells -/

/-- Where a stage is open and all requests are through, what was underway is announced. -/
theorem announced_of_finished {p : Nat} {s t : Int} {call : Nat} {c : Cfg}
    (h : Underway catalog p s t call c) (hfinished : Finished c.state) :
    Announced catalog p s t call c.past := by
  rcases h.turn with hdone | ⟨pc, hpc, hhand⟩
  · exact hdone
  · rw [hfinished call pc hpc] at hhand
    exact False.elim hhand

theorem around_init {p : Nat} {s : Int} {rows : Table} (hkeyed : Rows.Keyed Issue.id rows)
    (hparent : ∃ row, getIssue rows p = some row ∧ takesNotice catalog row = true)
    (hopen : ¬ Closed catalog p s rows) : Around catalog p (init rows) := by
  have hidle : ∀ call, (init rows).calls.get? call = none := fun _ => rfl
  refine ⟨hkeyed, hparent, ?_, fun call pc h => ?_, fun call pc prev status h => ?_,
    fun call pc h => ?_⟩
  rotate_left
  · rw [hidle] at h
    cases h
  · rw [hidle] at h
    cases h
  · rw [hidle] at h
    cases h
  -- A child that keeps a stage open has a stage.
  by_contra hunstaged
  apply hopen
  intro x hx t ht _
  exfalso
  apply hunstaged
  show (listChildIssues rows p).any (fun c => c.stage.isSome) = true
  rw [List.any_eq_true]
  exact ⟨x, hx, by rw [ht]; rfl⟩

/-- The last open child of the stages up to `s` is announced by the request that
wrote it; no decision reports a stage closed that it read open; a request
decides at most once about a parent; and the reports of a batch do not depend
on the order of its issues. -/
theorem stage_barrier (catalog : Catalog) (rows : Table) (hkeyed : Rows.Keyed Issue.id rows) :
    (∀ (p : Nat) (s : Int) (c : Cfg),
      Reach (step catalog) (Steady catalog p) (start (init rows)) c →
      (∃ row, getIssue rows p = some row ∧ takesNotice catalog row = true) →
      ¬ Closed catalog p s rows → Finished c.state → Closed catalog p s c.state.rows →
      ∃ (d : Cfg) (action : Action) (call : Nat) (t : Int),
        Reach (step catalog) (Steady catalog p) (start (init rows)) d ∧
          Closes catalog p s t call d action ∧
          Reach (step catalog) (Steady catalog p)
            (advance (step catalog) d action) c ∧
          Announced catalog p s t call c.past) ∧
    (∀ c : Cfg,
      Reach (step catalog) (fun _ _ => True) (start (init rows)) c →
      (∀ action d, (step catalog c.state action).1 = some d →
        d.children = listChildIssues c.state.rows d.parent ∧
          ∀ n, d.result = some n → n.Closed (isTerminal catalog) d.children) ∧
      (∀ call q, told c.past call q ≤ 1) ∧
      ∀ (ids ids' : List Nat) (status : String), ids.Perm ids' →
        (batchUpdate catalog c.state.rows ids status).1 =
            (batchUpdate catalog c.state.rows ids' status).1 ∧
          ((batchUpdate catalog c.state.rows ids status).2.map Notification.report).Perm
            ((batchUpdate catalog c.state.rows ids' status).2.map Notification.report) ∧
          ∀ (call : Nat) (locked : Bool),
            Goes catalog call c.state.rows (Request.batch ids status locked).call
              (batchUpdate catalog c.state.rows ids status).1 .finished
              (batchUpdate catalog c.state.rows ids status).2) := by
  constructor
  · intro p s c hreach hparent hopen hfinished hclosed
    have hstart : Around catalog p (start (init rows) : Cfg).state :=
      around_init hkeyed hparent hopen
    obtain ⟨d, action, hbefore, hsteady, hopen', hclosed', hafter⟩ :=
      hreach.milestone (P := fun c => Closed catalog p s c.state.rows) hopen hclosed
    have hd : Around catalog p d.state :=
      Reach.invariant (I := fun c => Around catalog p c.state)
        (fun e action hallowed he => he.step hallowed) hbefore hstart
    obtain ⟨call, t, hcloses, pc, hpc, hhand⟩ := closing_step hd hopen' hclosed'
    have hle : t ≤ s := by
      obtain ⟨_, _, _, x, _, _, hle, _⟩ := hcloses
      exact hle
    have hunderway : Underway catalog p s t call (advance (step catalog) d action) :=
      ⟨hd.step hsteady, hclosed', .inr ⟨pc, hpc, hhand⟩⟩
    have hend : Underway catalog p s t call c :=
      Reach.invariant (I := Underway catalog p s t call)
        (fun e action hallowed he => he.step hle hallowed) hafter hunderway
    exact ⟨d, action, call, t, hbefore, hcloses, hafter, announced_of_finished hend hfinished⟩
  · intro c hreach
    have hsound := sound_of_reach hkeyed hreach
    refine ⟨fun action d hd => decision_step hd, hsound.told_le, ?_⟩
    · intro ids ids' status hperm
      obtain ⟨hrows, hreports⟩ : (batchUpdate catalog c.state.rows ids status).1 = _ ∧ _ :=
        batch_order hsound.keyed hperm status
      refine ⟨hrows, hreports, fun call locked => ?_⟩
      exact batch_alone catalog call c.state.rows ids status locked

/-- No status of its own. -/
def plain : Catalog := fun _ => none

/-- An issue with a child in each of two stages. -/
def family : Table :=
  [⟨1, "todo", none, none, some "agent"⟩, ⟨2, "todo", some 1, some 1, none⟩,
    ⟨3, "todo", some 1, some 2, none⟩]

/-- Both children are written before either request reads. -/
def crossed : List Action :=
  [.request (.update 2 "done" true), .request (.update 3 "done" true), .goOn 0 .done,
    .goOn 1 .done, .goOn 1 .done, .goOn 0 .done, .goOn 1 .done, .goOn 1 .done, .goOn 0 .done,
    .goOn 0 .done]

theorem stage_barrier_crossed :
    ∃ (call : Nat) (t : Int), Announced plain 1 2 t call
      (exec (step plain) (start (init family)) crossed).past := by
  have hreach : Reach (step plain) (Steady plain 1) (start (init family))
      (exec (step plain) (start (init family)) crossed) :=
    reach_exec (by decide +kernel)
  have hkeyed : Rows.Keyed Issue.id family := show ([1, 2, 3] : List Nat).Nodup by decide
  have hclosed := (stage_barrier plain family hkeyed).1 1 2 _ hreach
    ⟨_, rfl, by decide +kernel⟩ (by decide +kernel) (by decide +kernel) (by decide +kernel)
  obtain ⟨_, _, call, t, _, _, _, hannounced⟩ := hclosed
  exact ⟨call, t, hannounced⟩

/-- The later stage is done first. -/
def lateFirst : List Action :=
  [.request (.update 3 "done" true), .goOn 0 .done, .goOn 0 .done, .goOn 0 .done, .goOn 0 .done,
    .request (.update 2 "done" true), .goOn 1 .done, .goOn 1 .done, .goOn 1 .done, .goOn 1 .done]

/-- Both stages are closed in the end, and no decision has reported the second. -/
theorem later_stage_unnamed :
    AllAllowed (step plain) (Steady plain 1) (start (init family)) lateFirst ∧
      (∃ row, getIssue family 1 = some row ∧ takesNotice plain row = true) ∧
      ¬ Closed plain 1 2 family ∧
      Finished (exec (step plain) (start (init family)) lateFirst).state ∧
      Closed plain 1 2 (exec (step plain) (start (init family)) lateFirst).state.rows ∧
      ∀ e ∈ (exec (step plain) (start (init family)) lateFirst).past,
        ∀ d ∈ e.2, ∀ n ∈ d.result, ¬ (2 ≤ n.closedStage) :=
  ⟨by decide +kernel, ⟨_, rfl, by decide +kernel⟩, by decide +kernel, by decide +kernel,
    by decide +kernel, by decide +kernel⟩

end ClawMessenger.Ports.ChildDone
