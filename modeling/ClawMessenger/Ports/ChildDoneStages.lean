import ClawMessenger.Ports.ChildDone

/-!
# Closed stages

What a decision says is read off the siblings it was given.  A stage that is
reported closed is closed with every stage before it (`decideSingle_closed`,
`decideGroup_closed`), the next stage has work left (`nextStage_open`), and a
batch reports the highest stage that one of its children closes
(`best_spec`).  That makes the reports of a batch a function of the set of its
issues (`batch_order`).
-/

namespace ClawMessenger.Ports.ChildDone

open Verified List

/-- Every staged child up to a stage is terminal. -/
def ClosedUpTo (terminal : Issue → Bool) (children : List Issue) (s : Int) : Prop :=
  ∀ c ∈ children, ∀ t, c.stage = some t → t ≤ s → terminal c = true

/-! ## The barrier -/

variable {children : List Issue} {s : Int} {terminal : Issue → Bool} {catalog : Catalog}

variable {completed : Issue}

theorem stageBarrierClosed_iff (hstaged : siblingsAreStaged children = true)
    (hs : completed.stage = some s) :
    stageBarrierClosed children completed terminal = true ↔ ClosedUpTo terminal children s := by
  have hopen : ∀ c : Issue, holdsOpen terminal s c = false ↔
      ∀ t, c.stage = some t → t ≤ s → terminal c = true := by
    intro c
    unfold holdsOpen
    cases hc : c.stage with
    | none | some t => simp
  rw [stageBarrierClosed, hstaged, hs]
  simp only [Bool.not_true, Bool.false_eq_true, if_false, all_eq_true, Bool.not_eq_true']
  constructor
  · intro h c hc
    exact (hopen c).mp (h c hc)
  · intro h c hc
    exact (hopen c).mpr (h c hc)

theorem stage_of_closed (hstaged : siblingsAreStaged children = true)
    (h : stageBarrierClosed children completed terminal = true) :
    ∃ s, completed.stage = some s := by
  cases hs : completed.stage with
  | none => simp [stageBarrierClosed, hstaged, hs] at h
  | some s => exact ⟨s, rfl⟩

theorem all_terminal_of_closed (hstaged : siblingsAreStaged children = false)
    (h : stageBarrierClosed children completed terminal = true) :
    ∀ c ∈ children, terminal c = true := by
  rw [stageBarrierClosed, hstaged] at h
  exact all_eq_true.mp h

/-! ## The next stage -/

/-- A next stage is after the closed one and has a child that is not terminal. -/
def NextOpen (children : List Issue) (closedStage : Int) (terminal : Issue → Bool) (n : Int) :
    Prop :=
  n = 0 ∨ (closedStage < n ∧ ∃ c ∈ children, c.stage = some n ∧ terminal c = false)

theorem exists_open (h : (byStage children terminal s).done < (byStage children terminal s).total) :
    ∃ c ∈ children, c.stage = some s ∧ terminal c = false := by
  by_contra hnone
  have hall : (children.filter fun c => c.stage = some s).filter terminal =
      children.filter fun c => c.stage = some s := by
    apply filter_eq_self.mpr
    intro c hc
    rw [mem_filter, decide_eq_true_eq] at hc
    by_contra hterminal
    exact hnone ⟨c, hc.1, hc.2, by simpa using hterminal⟩
  simp only [byStage, hall] at h
  omega

variable {closedStage : Int}

theorem nextOpen_foldl (order : List Int) {progress : Progress}
    (h : NextOpen children closedStage terminal progress.nextStage) :
    NextOpen children closedStage terminal
      (order.foldl (addStage children closedStage terminal) progress).nextStage := by
  induction order generalizing progress with
  | nil => exact h
  | cons s order ih =>
    apply ih
    unfold addStage
    by_cases hnext : progress.nextStage = 0 ∧ s > closedStage ∧
        (byStage children terminal s).done < (byStage children terminal s).total
    · rw [if_pos hnext]
      exact .inr ⟨hnext.2.1, exists_open hnext.2.2⟩
    · rw [if_neg hnext]
      exact h

theorem nextStage_open (children : List Issue) (closedStage : Int) (terminal : Issue → Bool) :
    NextOpen children closedStage terminal
      (stageProgressSummary children closedStage terminal).2 :=
  nextOpen_foldl (stages children) (.inl rfl)

/-! ## The highest closed stage of a group -/

/-- What the search has found among the children it has seen. -/
def Best (children : List Issue) (terminal : Issue → Bool) (seen : List Issue) :
    Option (Issue × Int) → Prop
  | none => ∀ c ∈ seen, ∀ s, c.stage = some s → stageBarrierClosed children c terminal = false
  | some (rep, m) => rep ∈ seen ∧ rep.stage = some m ∧
      stageBarrierClosed children rep terminal = true ∧
      ∀ c ∈ seen, ∀ s, c.stage = some s → stageBarrierClosed children c terminal = true → s ≤ m

variable {seen : List Issue} {best : Option (Issue × Int)}

theorem best_addClosed (h : Best children terminal seen best) (c : Issue) :
    Best children terminal (seen ++ [c]) (addClosed children terminal best c) := by
  have hskip : (∀ s, c.stage = some s → stageBarrierClosed children c terminal = false) →
      Best children terminal (seen ++ [c]) best := by
    intro hc
    cases best with
    | none =>
      intro c' hc' s hs
      rcases mem_append.mp hc' with hc' | hc'
      · exact h c' hc' s hs
      · rw [mem_singleton] at hc'
        subst hc'
        exact hc s hs
    | some b =>
      obtain ⟨hmem, hstage, hclosed, hmax⟩ := h
      refine ⟨mem_append_left _ hmem, hstage, hclosed, ?_⟩
      intro c' hc' s hs hclosed'
      rcases mem_append.mp hc' with hc' | hc'
      · exact hmax c' hc' s hs hclosed'
      · rw [mem_singleton] at hc'
        subst hc'
        rw [hc s hs] at hclosed'
        cases hclosed'
  have hlast : c ∈ seen ++ [c] := mem_append_right _ (mem_singleton_self c)
  unfold addClosed
  cases hstage : c.stage with
  | none =>
    apply hskip
    intro s hs
    rw [hstage] at hs
    cases hs
  | some s =>
    dsimp only
    by_cases hclosed : stageBarrierClosed children c terminal = true
    · simp only [hclosed, Bool.not_true, Bool.false_eq_true, if_false]
      cases best with
      | none =>
        refine ⟨hlast, hstage, hclosed, ?_⟩
        intro c' hc' s' hs' hclosed'
        rcases mem_append.mp hc' with hc' | hc'
        · rw [h c' hc' s' hs'] at hclosed'
          cases hclosed'
        · rw [mem_singleton] at hc'
          subst hc'
          rw [hstage, Option.some.injEq] at hs'
          omega
      | some b =>
        obtain ⟨rep, m⟩ := b
        obtain ⟨hmem, hrep, hrepClosed, hmax⟩ := h
        dsimp only
        by_cases hgt : s > m
        · rw [if_pos hgt]
          refine ⟨hlast, hstage, hclosed, ?_⟩
          intro c' hc' s' hs' hclosed'
          rcases mem_append.mp hc' with hc' | hc'
          · have hle := hmax c' hc' s' hs' hclosed'
            omega
          · rw [mem_singleton] at hc'
            subst hc'
            rw [hstage, Option.some.injEq] at hs'
            omega
        · rw [if_neg hgt]
          refine ⟨mem_append_left _ hmem, hrep, hrepClosed, ?_⟩
          intro c' hc' s' hs' hclosed'
          rcases mem_append.mp hc' with hc' | hc'
          · exact hmax c' hc' s' hs' hclosed'
          · rw [mem_singleton] at hc'
            subst hc'
            rw [hstage, Option.some.injEq] at hs'
            omega
    · have hopen : stageBarrierClosed children c terminal = false := by simpa using hclosed
      simp only [hopen, Bool.not_false, if_true]
      apply hskip
      intro _ _
      exact hopen

theorem best_foldl (group : List Issue) (h : Best children terminal seen best) :
    Best children terminal (seen ++ group) (group.foldl (addClosed children terminal) best) := by
  induction group generalizing seen best with
  | nil => simpa using h
  | cons c group ih =>
    have hnext := ih (best_addClosed h c)
    rwa [append_assoc, singleton_append] at hnext

theorem best_spec (children group : List Issue) (terminal : Issue → Bool) :
    Best children terminal group (group.foldl (addClosed children terminal) none) := by
  have hnil : Best children terminal [] none := by
    intro c hc
    cases hc
  have hfold := best_foldl group hnil
  rwa [nil_append] at hfold

/-! ## What a decision reports -/

/-- What is reported closed is closed. -/
def Notification.Closed (terminal : Issue → Bool) (children : List Issue) (n : Notification) :
    Prop :=
  if n.staged then ClosedUpTo terminal children n.closedStage
  else ∀ c ∈ children, terminal c = true

variable {parent issue : Issue} {n : Notification}

theorem decideSingle_closed (h : decideSingle catalog parent issue children = some n) :
    n.Closed (isTerminal catalog) children := by
  unfold decideSingle at h
  by_cases hclosed : stageBarrierClosed children issue (isTerminal catalog) = true
  · simp only [hclosed, Bool.not_true, Bool.false_eq_true, if_false, Option.some.injEq] at h
    subst h
    unfold Notification.Closed postChildDoneComment
    cases hstaged : siblingsAreStaged children with
    | false => exact all_terminal_of_closed hstaged hclosed
    | true =>
      obtain ⟨s, hs⟩ := stage_of_closed hstaged hclosed
      rw [if_pos rfl, if_pos rfl, hs]
      exact (stageBarrierClosed_iff hstaged hs).mp hclosed
  · simp [hclosed] at h

variable {group : List Issue}

theorem decideGroup_closed (h : decideGroup catalog parent group children = some n) :
    n.Closed (isTerminal catalog) children := by
  unfold decideGroup at h
  cases hstaged : siblingsAreStaged children with
  | false =>
    rw [hstaged] at h
    simp only [Bool.not_false, if_true] at h
    cases hhead : group.head? with
    | none =>
      rw [hhead] at h
      cases h
    | some c =>
      rw [hhead] at h
      by_cases hclosed : stageBarrierClosed children c (isTerminal catalog) = true
      · simp only [hclosed, Bool.not_true, Bool.false_eq_true, if_false,
          Option.some.injEq] at h
        subst h
        exact all_terminal_of_closed hstaged hclosed
      · simp [hclosed] at h
  | true =>
    rw [hstaged] at h
    simp only [Bool.not_true, Bool.false_eq_true, if_false] at h
    have hbest := best_spec children group (isTerminal catalog)
    cases hfold : group.foldl (addClosed children (isTerminal catalog)) none with
    | none =>
      rw [hfold] at h
      cases h
    | some b =>
      obtain ⟨rep, m⟩ := b
      rw [hfold] at h hbest
      simp only [Option.some.injEq] at h
      subst h
      exact (stageBarrierClosed_iff hstaged hbest.2.1).mp hbest.2.2.1

/-- A report that a child of stage `t` has been waiting for: it is of that stage
or a later one, and the next stage is after `s`. -/
def Announces (s t : Int) (n : Notification) : Prop :=
  n.staged = true ∧ t ≤ n.closedStage ∧ (n.nextStage = 0 ∨ s < n.nextStage)

theorem nextStage_after (hclosed : ClosedUpTo terminal children s) :
    (stageProgressSummary children closedStage terminal).2 = 0 ∨
      s < (stageProgressSummary children closedStage terminal).2 := by
  rcases nextStage_open children closedStage terminal with hzero | ⟨_, c, hc, hstage, hopen⟩
  · exact .inl hzero
  · right
    by_contra hle
    rw [hclosed c hc _ hstage (by omega)] at hopen
    cases hopen

variable {t : Int}

theorem decideSingle_announces (parent : Issue) (hstaged : siblingsAreStaged children = true)
    (hstage : issue.stage = some t) (hle : t ≤ s)
    (hclosed : ClosedUpTo (isTerminal catalog) children s) :
    ∃ n, decideSingle catalog parent issue children = some n ∧ Announces s t n := by
  have hbarrier : stageBarrierClosed children issue (isTerminal catalog) = true := by
    apply (stageBarrierClosed_iff hstaged hstage).mpr
    intro c hc t' ht' hle'
    exact hclosed c hc t' ht' (by omega)
  refine ⟨postChildDoneComment catalog parent issue children true t false, ?_, rfl, ?_, ?_⟩
  · simp [decideSingle, hbarrier, hstaged, hstage]
  · exact Int.le_refl t
  · exact nextStage_after hclosed

theorem decideGroup_announces (parent : Issue) (hstaged : siblingsAreStaged children = true)
    (hmem : issue ∈ group) (hstage : issue.stage = some t) (hle : t ≤ s)
    (hclosed : ClosedUpTo (isTerminal catalog) children s) :
    ∃ n, decideGroup catalog parent group children = some n ∧ Announces s t n := by
  have hbarrier : stageBarrierClosed children issue (isTerminal catalog) = true := by
    apply (stageBarrierClosed_iff hstaged hstage).mpr
    intro c hc t' ht' hle'
    exact hclosed c hc t' ht' (by omega)
  have hbest := best_spec children group (isTerminal catalog)
  unfold decideGroup
  dsimp only
  rw [hstaged]
  cases hfold : group.foldl (addClosed children (isTerminal catalog)) none with
  | none =>
    rw [hfold] at hbest
    rw [hbest issue hmem t hstage] at hbarrier
    cases hbarrier
  | some b =>
    obtain ⟨rep, m⟩ := b
    rw [hfold] at hbest
    refine ⟨_, rfl, rfl, hbest.2.2.2 issue hmem t hstage hbarrier, ?_⟩
    exact nextStage_after hclosed

end ClawMessenger.Ports.ChildDone
