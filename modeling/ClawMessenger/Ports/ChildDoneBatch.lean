import ClawMessenger.Ports.ChildDoneStages

/-!
# A batch and the order of its issues

`batchUpdate` is `BatchUpdateIssues` with nothing in between: write the rows one
after another, collect the children that became terminal, then decide once for
each parent.  The table after it and what it reports depend on the set of the
ids only, and no parent is told twice.  `batch_alone` says that a request that
is left alone does just this, statement by statement.
-/

namespace ClawMessenger.Ports.ChildDone

open Verified Verified.Machine List

/-! ## Groups -/

def groupOf (parent : Nat) (completed : List Issue) : List Issue :=
  completed.filter fun c => c.parentIssueID = some parent

theorem get?_foldl_addToGroup (completed : List Issue) (groups : Groups) (parent : Nat) :
    (completed.foldl addToGroup groups).get? parent =
      if groupOf parent completed = [] then groups.get? parent
      else some ((groups.get? parent).getD [] ++ groupOf parent completed) := by
  induction completed generalizing groups with
  | nil => rfl
  | cons c completed ih =>
    rw [foldl_cons, ih]
    cases hparent : c.parentIssueID with
    | none =>
      have hgroup : groupOf parent (c :: completed) = groupOf parent completed := by
        simp [groupOf, hparent]
      rw [hgroup, addToGroup, hparent]
    | some p =>
      rw [addToGroup, hparent]
      rw [OrderedMap.get?_set]
      by_cases hp : parent = p
      · have hgroup : groupOf parent (c :: completed) = c :: groupOf parent completed := by
          simp [groupOf, hparent, hp]
        rw [if_pos hp, hgroup, if_neg (cons_ne_nil _ _), ← hp]
        by_cases hrest : groupOf parent completed = []
        · rw [if_pos hrest, hrest]
        · rw [if_neg hrest]
          simp
      · have hgroup : groupOf parent (c :: completed) = groupOf parent completed := by
          simp [groupOf, hparent, Ne.symm hp]
        rw [if_neg hp, hgroup]

theorem get?_groupByParent (completed : List Issue) (parent : Nat) :
    (groupByParent completed).get? parent =
      if groupOf parent completed = [] then none else some (groupOf parent completed) := by
  rw [groupByParent, get?_foldl_addToGroup]
  rfl

variable {completed : List Issue}

theorem group_of_mem {e : Nat × List Issue} (he : e ∈ (groupByParent completed).entries) :
    e.2 = groupOf e.1 completed ∧ e.2 ≠ [] := by
  have hget := OrderedMap.get?_eq_some_iff.mpr he
  rw [get?_groupByParent] at hget
  by_cases hnil : groupOf e.1 completed = []
  · rw [if_pos hnil] at hget
    cases hget
  · rw [if_neg hnil, Option.some.injEq] at hget
    exact ⟨hget.symm, hget ▸ hnil⟩

variable {parent : Nat}

theorem mem_keys_groupByParent :
    parent ∈ (groupByParent completed).keys ↔ groupOf parent completed ≠ [] := by
  have hnone : (groupByParent completed).get? parent = none ↔
      parent ∉ (groupByParent completed).keys := OrderedMap.get?_eq_none_iff
  rw [get?_groupByParent] at hnone
  by_cases hnil : groupOf parent completed = []
  · rw [if_pos hnil] at hnone
    exact ⟨fun h => absurd h (hnone.mp rfl), fun h => absurd hnil h⟩
  · rw [if_neg hnil] at hnone
    refine ⟨fun _ => hnil, fun _ => ?_⟩
    by_contra habsent
    have hget := hnone.mpr habsent
    cases hget

/-! ## Reports -/

/-- What the claimant of a stage can see of a comment. -/
def Notification.report (n : Notification) : Nat × Int × Int :=
  (n.parent, n.closedStage, n.nextStage)

variable {catalog : Catalog} {rows : Table}

variable {group group' : List Issue}

/-- The report of a group does not depend on the order of its children. -/
theorem decideGroup_report {parent : Issue} {children : List Issue} (h : group.Perm group') :
    (decideGroup catalog parent group children).map Notification.report =
      (decideGroup catalog parent group' children).map Notification.report := by
  unfold decideGroup
  cases hstaged : siblingsAreStaged children with
  | false =>
    have hsame : ∀ c : Issue, stageBarrierClosed children c (isTerminal catalog) =
        children.all (isTerminal catalog) := by
      intro c
      rw [stageBarrierClosed, hstaged]
      rfl
    simp only [Bool.not_false, if_true, hsame]
    cases group with
    | nil =>
      rw [nil_perm.mp h]
    | cons c rest =>
      cases group' with
      | nil => exact absurd h.length_eq (Nat.succ_ne_zero _)
      | cons c' rest' =>
        dsimp only [head?_cons]
        by_cases hall : children.all (isTerminal catalog) = true
        · simp [hall, Notification.report, postChildDoneComment]
        · simp [hall]
  | true =>
    simp only [Bool.not_true, Bool.false_eq_true, if_false]
    have hbest := best_spec children group (isTerminal catalog)
    have hbest' := best_spec children group' (isTerminal catalog)
    cases hfold : group.foldl (addClosed children (isTerminal catalog)) none with
    | none =>
      cases hfold' : group'.foldl (addClosed children (isTerminal catalog)) none with
      | none => rfl
      | some b =>
        rw [hfold] at hbest
        rw [hfold'] at hbest'
        obtain ⟨hmem, hstage, hclosed, _⟩ := hbest'
        rw [hbest _ (h.mem_iff.mpr hmem) _ hstage] at hclosed
        cases hclosed
    | some b =>
      rw [hfold] at hbest
      obtain ⟨hmem, hstage, hclosed, hmax⟩ := hbest
      cases hfold' : group'.foldl (addClosed children (isTerminal catalog)) none with
      | none =>
        rw [hfold'] at hbest'
        rw [hbest' _ (h.mem_iff.mp hmem) _ hstage] at hclosed
        cases hclosed
      | some b' =>
        rw [hfold'] at hbest'
        obtain ⟨hmem', hstage', hclosed', hmax'⟩ := hbest'
        have hle := hmax _ (h.mem_iff.mpr hmem') _ hstage' hclosed'
        have hle' := hmax' _ (h.mem_iff.mp hmem) _ hstage hclosed
        have heq : b.2 = b'.2 := by omega
        simp [Notification.report, postChildDoneComment, heq]

/-- What `notifyParentsOfBatchChildDone` posts for one group. -/
def notifyGroup (catalog : Catalog) (rows : Table) (parent : Nat) (group : List Issue) :
    Option Notification :=
  match getIssue rows parent with
  | none => none
  | some row =>
    if takesNotice catalog row then
      decideGroup catalog row group (listChildIssues rows row.id)
    else none

def notifyParentsOfBatchChildDone (catalog : Catalog) (rows : Table) (completed : List Issue) :
    List Notification :=
  (groupByParent completed).entries.filterMap fun e => notifyGroup catalog rows e.1 e.2

variable {id : Nat}

theorem getIssue_id {row : Issue} (h : getIssue rows id = some row) :
    row.id = id := by
  have hfound := find?_some h
  simpa using hfound

theorem getIssue_mem {row : Issue} (h : getIssue rows id = some row) :
    row ∈ rows :=
  mem_of_find?_eq_some h

theorem notify_eq (catalog : Catalog) (rows : Table) (completed : List Issue) :
    notifyParentsOfBatchChildDone catalog rows completed =
      (groupByParent completed).keys.filterMap fun parent =>
        notifyGroup catalog rows parent (groupOf parent completed) := by
  rw [notifyParentsOfBatchChildDone, OrderedMap.keys, filterMap_map]
  apply filterMap_congr
  intro e he
  rw [(group_of_mem he).1]
  rfl

theorem notifyGroup_report (h : group.Perm group') :
    (notifyGroup catalog rows parent group).map Notification.report =
      (notifyGroup catalog rows parent group').map Notification.report := by
  unfold notifyGroup
  cases getIssue rows parent with
  | none => rfl
  | some row =>
    dsimp only
    by_cases htakes : takesNotice catalog row = true
    · rw [if_pos htakes, if_pos htakes]
      exact decideGroup_report h
    · rw [if_neg htakes, if_neg htakes]

/-- The reports depend on the set of the completed children only. -/
theorem notify_perm {completed' : List Issue} (h : completed.Perm completed') :
    ((notifyParentsOfBatchChildDone catalog rows completed).map Notification.report).Perm
      ((notifyParentsOfBatchChildDone catalog rows completed').map Notification.report) := by
  have hgroup : ∀ parent, (groupOf parent completed).Perm (groupOf parent completed') :=
    fun _ => h.filter _
  have hkeys : (groupByParent completed).keys.Perm (groupByParent completed').keys := by
    apply (perm_ext_iff_of_nodup (groupByParent completed).nodup
      (groupByParent completed').nodup).mpr
    intro parent
    show parent ∈ (groupByParent completed).keys ↔ parent ∈ (groupByParent completed').keys
    rw [mem_keys_groupByParent, mem_keys_groupByParent]
    have hlen := (hgroup parent).length_eq
    rw [← length_pos_iff_ne_nil, ← length_pos_iff_ne_nil, hlen]
  rw [notify_eq, notify_eq, map_filterMap, map_filterMap]
  have hsame : (fun parent => (notifyGroup catalog rows parent (groupOf parent completed)).map
      Notification.report) = fun parent =>
        (notifyGroup catalog rows parent (groupOf parent completed')).map Notification.report := by
    funext parent
    exact notifyGroup_report (hgroup parent)
  rw [hsame]
  exact hkeys.filterMap _

/-! ## The whole batch -/

/-- One issue of the loop. -/
def batchItem (catalog : Catalog) (status : String) (loop : Table × List Issue) (id : Nat) :
    Table × List Issue :=
  match getIssue loop.1 id with
  | none => loop
  | some prev =>
    (writeStatus loop.1 prev.id status, collect catalog prev { prev with status := status } loop.2)

/-- `BatchUpdateIssues` with nothing in between: the table and the comments. -/
def batchUpdate (catalog : Catalog) (rows : Table) (ids : List Nat) (status : String) :
    Table × List Notification :=
  let loop := ids.foldl (batchItem catalog status) (rows, [])
  (loop.1, notifyParentsOfBatchChildDone catalog loop.1 loop.2)

/-- A row after the batch. -/
def mark (ids : List Nat) (status : String) (row : Issue) : Issue :=
  if row.id ∈ ids then { row with status := status } else row

@[simp] theorem mark_id (ids : List Nat) (status : String) (row : Issue) :
    (mark ids status row).id = row.id := by
  unfold mark
  by_cases h : row.id ∈ ids
  · rw [if_pos h]
  · rw [if_neg h]

theorem getIssue_mark (rows : Table) (ids : List Nat) (status : String) (id : Nat) :
    getIssue (rows.map (mark ids status)) id = (getIssue rows id).map (mark ids status) := by
  rw [getIssue, find?_map, getIssue]
  congr 2
  funext row
  simp

theorem writeStatus_mark (rows : Table) (ids : List Nat) (status : String) (id : Nat) :
    writeStatus (rows.map (mark ids status)) id status =
      rows.map (mark (ids ++ [id]) status) := by
  rw [writeStatus, Rows.update, map_map]
  apply map_congr_left
  intro row _
  show (if decide ((mark ids status row).id = id) = true then
    { mark ids status row with status := status } else mark ids status row) = _
  rw [mark_id]
  unfold mark
  by_cases hid : row.id = id
  · by_cases hmem : row.id ∈ ids
    · have hin : id ∈ ids := hid ▸ hmem
      simp [hid, hin]
    · have hout : id ∉ ids := hid ▸ hmem
      simp [hid, hout]
  · by_cases hmem : row.id ∈ ids
    · simp [hid, hmem]
    · simp [hid, hmem]

/-- The children a batch completes. -/
def Completed (catalog : Catalog) (rows : Table) (ids : List Nat) (status : String) (c : Issue) :
    Prop :=
  ∃ row ∈ rows, row.id ∈ ids ∧ c = { row with status := status } ∧ row.status ≠ status ∧
    row.parentIssueID.isSome = true ∧ completes catalog row { row with status := status } = true

/-- Where the loop is after some of the ids. -/
structure Looped (catalog : Catalog) (rows : Table) (ids : List Nat) (status : String)
    (loop : Table × List Issue) : Prop where
  table : loop.1 = rows.map (mark ids status)
  nodup : loop.2.Nodup
  mem : ∀ c, c ∈ loop.2 ↔ Completed catalog rows ids status c

theorem Looped.item {ids : List Nat} {status : String} {loop : Table × List Issue}
    (h : Looped catalog rows ids status loop) (hkeyed : Rows.Keyed Issue.id rows) (id : Nat) :
    Looped catalog rows (ids ++ [id]) status (batchItem catalog status loop id) := by
  have hget : getIssue loop.1 id = (getIssue rows id).map (mark ids status) := by
    rw [h.table, getIssue_mark]
  have hmark : (writeStatus loop.1 id status) = rows.map (mark (ids ++ [id]) status) := by
    rw [h.table, writeStatus_mark]
  unfold batchItem
  cases hrow : getIssue rows id with
  | none =>
    rw [hrow] at hget
    rw [hget]
    have habsent : ∀ row ∈ rows, row.id ≠ id := by
      intro row hmem heq
      have hnone := find?_eq_none.mp hrow row hmem
      simp [heq] at hnone
    refine ⟨?_, h.nodup, ?_⟩
    · rw [← hmark]
      symm
      apply Rows.update_of_none
      intro row hmem
      rw [h.table] at hmem
      obtain ⟨row', hrow', rfl⟩ := mem_map.mp hmem
      simpa using habsent row' hrow'
    · intro c
      rw [Option.map_none, h.mem]
      constructor
      · rintro ⟨row, hmem, hids, hrest⟩
        exact ⟨row, hmem, mem_append_left _ hids, hrest⟩
      · rintro ⟨row, hmem, hids, hrest⟩
        rcases mem_append.mp hids with hids | hids
        · exact ⟨row, hmem, hids, hrest⟩
        · exact absurd (mem_singleton.mp hids) (habsent row hmem)
  | some row =>
    rw [hrow] at hget
    rw [hget]
    have hid := getIssue_id hrow
    have hmem := getIssue_mem hrow
    show Looped catalog rows (ids ++ [id]) status
      (writeStatus loop.1 (mark ids status row).id status,
        collect catalog (mark ids status row) { mark ids status row with status := status } loop.2)
    rw [mark_id, hid]
    have hown : ∀ row' ∈ rows, row'.id ∈ ids ++ [id] → row'.id ∈ ids ∨ row' = row := by
      intro row' hrow' hids
      rcases mem_append.mp hids with hids | hids
      · exact .inl hids
      · right
        apply hkeyed.eq_of_key hrow' hmem
        rw [mem_singleton.mp hids, hid]
    by_cases hseen : id ∈ ids
    · -- The second time the status is there already.
      have hprev : mark ids status row = { row with status := status } := by
        rw [mark, if_pos (hid ▸ hseen)]
      have hcollect : collect catalog (mark ids status row)
          { mark ids status row with status := status } loop.2 = loop.2 := by
        simp [collect, hprev]
      rw [hcollect]
      refine ⟨hmark, h.nodup, ?_⟩
      intro c
      rw [h.mem]
      constructor
      · rintro ⟨row', hmem', hids, hrest⟩
        exact ⟨row', hmem', mem_append_left _ hids, hrest⟩
      · rintro ⟨row', hmem', hids, hrest⟩
        refine ⟨row', hmem', ?_, hrest⟩
        rcases hown row' hmem' hids with hids | rfl
        · exact hids
        · exact hid ▸ hseen
    · have hprev : mark ids status row = row := by
        rw [mark, if_neg]
        rw [hid]
        exact hseen
      rw [hprev]
      unfold collect
      by_cases hcond : (row.status != status && row.parentIssueID.isSome &&
          completes catalog row { row with status := status }) = true
      · rw [if_pos hcond]
        have hfacts : (row.status ≠ status ∧ row.parentIssueID.isSome = true) ∧
            completes catalog row { row with status := status } = true := by
          simpa [Bool.and_eq_true] using hcond
        refine ⟨hmark, ?_, ?_⟩
        · rw [nodup_append]
          refine ⟨h.nodup, nodup_singleton _, ?_⟩
          intro a ha b hb heq
          rw [mem_singleton] at hb
          subst hb heq
          obtain ⟨row', _, hids, heq, _⟩ := (h.mem _).mp ha
          have hsame : row.id = row'.id := (Issue.mk.inj heq).1
          rw [← hsame, hid] at hids
          exact hseen hids
        · intro c
          rw [mem_append, h.mem, mem_singleton]
          constructor
          · rintro (⟨row', hmem', hids, hrest⟩ | rfl)
            · exact ⟨row', hmem', mem_append_left _ hids, hrest⟩
            · exact ⟨row, hmem, mem_append_right _ (by simp [hid]), rfl, hfacts.1.1,
                hfacts.1.2, hfacts.2⟩
          · rintro ⟨row', hmem', hids, hrest⟩
            rcases hown row' hmem' hids with hids | rfl
            · exact .inl ⟨row', hmem', hids, hrest⟩
            · exact .inr hrest.1
      · rw [if_neg hcond]
        refine ⟨hmark, h.nodup, ?_⟩
        intro c
        rw [h.mem]
        constructor
        · rintro ⟨row', hmem', hids, hrest⟩
          exact ⟨row', hmem', mem_append_left _ hids, hrest⟩
        · rintro ⟨row', hmem', hids, hc, hne, hparent, hcompletes⟩
          rcases hown row' hmem' hids with hids | rfl
          · exact ⟨row', hmem', hids, hc, hne, hparent, hcompletes⟩
          · exact absurd (by simp [hne, hparent, hcompletes]) hcond

theorem looped (catalog : Catalog) (hkeyed : Rows.Keyed Issue.id rows) (ids : List Nat)
    (status : String) :
    Looped catalog rows ids status (ids.foldl (batchItem catalog status) (rows, [])) := by
  induction ids using reverseRecOn with
  | nil =>
    refine ⟨?_, nodup_nil, ?_⟩
    · have hid : mark [] status = id := by
        funext row
        simp [mark]
      rw [foldl_nil, hid, map_id]
    · intro c
      simp [Completed]
  | append_singleton ids id ih =>
    rw [foldl_append, foldl_cons, foldl_nil]
    exact ih.item hkeyed id

/-- The same issues in another order: the same table, the same reports. -/
theorem batch_order (hkeyed : Rows.Keyed Issue.id rows) {ids ids' : List Nat} (h : ids.Perm ids')
    (status : String) :
    (batchUpdate catalog rows ids status).1 = (batchUpdate catalog rows ids' status).1 ∧
      ((batchUpdate catalog rows ids status).2.map Notification.report).Perm
        ((batchUpdate catalog rows ids' status).2.map Notification.report) := by
  have hloop := looped catalog hkeyed ids status
  have hloop' := looped catalog hkeyed ids' status
  have hmark : mark ids status = mark ids' status := by
    funext row
    simp only [mark, h.mem_iff]
  have hrows : (ids.foldl (batchItem catalog status) (rows, [])).1 =
      (ids'.foldl (batchItem catalog status) (rows, [])).1 := by
    rw [hloop.table, hloop'.table, hmark]
  have hcompleted : (ids.foldl (batchItem catalog status) (rows, [])).2.Perm
      (ids'.foldl (batchItem catalog status) (rows, [])).2 := by
    apply (perm_ext_iff_of_nodup hloop.nodup hloop'.nodup).mpr
    intro c
    rw [hloop.mem, hloop'.mem, Completed, Completed]
    simp only [h.mem_iff]
  refine ⟨hrows, ?_⟩
  unfold batchUpdate
  dsimp only
  rw [hrows]
  exact notify_perm hcompleted

/-! ## A request left alone -/

def posted (past : List (Action × Option Decision)) : List Notification :=
  past.filterMap fun e => e.2.bind Decision.result

/-- A request stands at `pc` and the table is `rows`. -/
def At (call : Nat) (rows : Table) (pc : Call) (c : Cfg) : Prop :=
  c.state.rows = rows ∧ c.state.calls.get? call = some pc

/-- Left alone, the request gets from one place to another and posts `ns`. -/
def Goes (catalog : Catalog) (call : Nat) (rows : Table) (pc : Call) (rows' : Table) (pc' : Call)
    (ns : List Notification) : Prop :=
  ∀ c, At call rows pc c → ∃ n,
    At call rows' pc'
      (exec (step catalog) c (List.replicate n (.goOn call .done))) ∧
    posted (exec (step catalog) c (List.replicate n (.goOn call .done))).past =
      posted c.past ++ ns

section Goes

variable {catalog : Catalog} {call : Nat} {rows rows' rows'' : Table} {pc pc' pc'' : Call}
  {ns ns' : List Notification}

theorem Goes.trans (h : Goes catalog call rows pc rows' pc' ns)
    (h' : Goes catalog call rows' pc' rows'' pc'' ns') :
    Goes catalog call rows pc rows'' pc'' (ns ++ ns') := by
  intro c hc
  obtain ⟨n, hat, hposted⟩ := h c hc
  obtain ⟨m, hat', hposted'⟩ := h' _ hat
  refine ⟨n + m, ?_⟩
  rw [replicate_add, exec_append]
  exact ⟨hat', by rw [hposted', hposted, append_assoc]⟩

theorem Goes.one {decision : Option Decision}
    (h : statement catalog rows call .done pc = (rows', pc', decision)) :
    Goes catalog call rows pc rows' pc' (decision.bind Decision.result).toList := by
  rintro c ⟨hrows, hcall⟩
  have hstep : step catalog c.state (.goOn call .done) =
      (decision, { c.state with rows := rows', calls := c.state.calls.set call pc' }) := by
    simp only [step, hcall, hrows, h]
  refine ⟨1, ⟨?_, ?_⟩, ?_⟩
  · show (step catalog c.state (.goOn call .done)).2.rows = rows'
    rw [hstep]
  · show (step catalog c.state (.goOn call .done)).2.calls.get? call = some pc'
    rw [hstep]
    exact OrderedMap.get?_set_self _ _ _
  · show posted (c.past ++ [(Action.goOn call .done, (step catalog c.state _).1)]) = _
    rw [hstep, posted, filterMap_append, posted]
    congr 1

end Goes

theorem goes_groups (catalog : Catalog) (call : Nat) (rows : Table)
    (entries : List (Nat × List Issue)) :
    Goes catalog call rows (.batchParent entries) rows .finished
      (entries.filterMap fun e => notifyGroup catalog rows e.1 e.2) := by
  induction entries with
  | nil => exact Goes.one rfl
  | cons e entries ih =>
    obtain ⟨parent, group⟩ := e
    cases hget : getIssue rows parent with
    | none =>
      have hskip : statement catalog rows call .done (.batchParent ((parent, group) :: entries)) =
          (rows, .batchParent entries, none) := by
        simp only [statement, perform, hget]
      have hgroup : notifyGroup catalog rows parent group = none := by
        simp only [notifyGroup, hget]
      have hgoes := (Goes.one hskip).trans ih
      rw [filterMap_cons]
      simpa [hgroup] using hgoes
    | some row =>
      by_cases htakes : takesNotice catalog row = true
      · have hread : statement catalog rows call .done
            (.batchParent ((parent, group) :: entries)) =
              (rows, .batchChildren row group entries, none) := by
          simp only [statement, perform, hget, htakes, if_true]
        have hdecide : statement catalog rows call .done (.batchChildren row group entries) =
            (rows, .batchParent entries, some ⟨call, row.id, listChildIssues rows row.id,
              decideGroup catalog row group (listChildIssues rows row.id)⟩) := rfl
        have hgroup : notifyGroup catalog rows parent group =
            decideGroup catalog row group (listChildIssues rows row.id) := by
          simp only [notifyGroup, hget, htakes, if_true]
        have hgoes := ((Goes.one hread).trans (Goes.one hdecide)).trans ih
        rw [filterMap_cons]
        cases hresult : decideGroup catalog row group (listChildIssues rows row.id) with
        | none | some n => simpa [hgroup, hresult] using hgoes
      · have hskip : statement catalog rows call .done
            (.batchParent ((parent, group) :: entries)) = (rows, .batchParent entries, none) := by
          simp [statement, perform, hget, htakes]
        have hgroup : notifyGroup catalog rows parent group = none := by
          simp [notifyGroup, hget, htakes]
        have hgoes := (Goes.one hskip).trans ih
        rw [filterMap_cons]
        simpa [hgroup] using hgoes

theorem goes_loop (catalog : Catalog) (call : Nat) (status : String) (locked : Bool)
    (ids : List Nat) (rows : Table) (completed : List Issue) :
    Goes catalog call rows (.batchLoad ids status locked completed)
      (ids.foldl (batchItem catalog status) (rows, completed)).1
      (afterBatch (ids.foldl (batchItem catalog status) (rows, completed)).2) [] := by
  induction ids generalizing rows completed with
  | nil => exact Goes.one rfl
  | cons id ids ih =>
    rw [foldl_cons]
    cases hget : getIssue rows id with
    | none =>
      have hskip : statement catalog rows call .done
          (.batchLoad (id :: ids) status locked completed) =
            (rows, .batchLoad ids status locked completed, none) := by
        simp only [statement, perform, hget]
      have hitem : batchItem catalog status (rows, completed) id = (rows, completed) := by
        simp only [batchItem, hget]
      rw [hitem]
      exact (Goes.one hskip).trans (ih rows completed)
    | some prev =>
      have hid := getIssue_id hget
      have hload : statement catalog rows call .done
          (.batchLoad (id :: ids) status locked completed) =
            (rows, .batchWrite prev ids status locked completed, none) := by
        simp only [statement, perform, hget]
      have hwrite : statement catalog rows call .done
          (.batchWrite prev ids status locked completed) =
            (writeStatus rows prev.id status, .batchLoad ids status locked
              (collect catalog prev { prev with status := status } completed), none) := by
        have hrow : getIssue rows prev.id = some prev := hid ▸ hget
        simp only [statement, perform, hrow, ite_self]
      have hitem : batchItem catalog status (rows, completed) id =
          (writeStatus rows prev.id status,
            collect catalog prev { prev with status := status } completed) := by
        simp only [batchItem, hget]
      rw [hitem]
      exact ((Goes.one hload).trans (Goes.one hwrite)).trans (ih _ _)

/-- A batch that is left alone is `batchUpdate`. -/
theorem batch_alone (catalog : Catalog) (call : Nat) (rows : Table) (ids : List Nat)
    (status : String) (locked : Bool) :
    Goes catalog call rows (Request.batch ids status locked).call
      (batchUpdate catalog rows ids status).1 .finished
      (batchUpdate catalog rows ids status).2 :=
  (goes_loop catalog call status locked ids rows []).trans (goes_groups catalog call _ _)

end ClawMessenger.Ports.ChildDone
